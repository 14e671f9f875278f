import StatementLang.TokenKind
/-!
# Tokens

A token has a kind, the 1-based line on which it starts, and, where the spelling of its kind
varies, its lexeme. The parser looks at kinds only.
-/
namespace StatementLang

/-- A kind, a line, and the lexeme if the kind keeps it (its field `text`). -/
structure Token where
  kind : TokenKind
  line : UInt32
  lexeme : Option String := none
  deriving DecidableEq, Repr, Inhabited

namespace Token

/-- The token that stands for the end of the input. -/
def eof (line : UInt32) : Token := ⟨.eof, line, none⟩

/-- The lexeme, or else the name of the kind. -/
def text (t : Token) : String := t.lexeme.getD t.kind.name

/-- How a dump shows a token: its kind, then its lexeme if it has one. -/
def display (t : Token) : String :=
  match t.lexeme with
  | some s => t.kind.name ++ " " ++ s
  | none => t.kind.name

@[simp] theorem kind_eof (n : UInt32) : (eof n).kind = .eof := rfl

end Token
end StatementLang
