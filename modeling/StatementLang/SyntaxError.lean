import StatementLang.Token
/-!
# Syntax errors

What is said about a token that does not fit: its line, what was expected there, and its kind.
-/
namespace StatementLang

/-- A line, a text and a kind (`SyntaxError`). -/
structure SyntaxError where
  line : UInt32
  expected : String
  found : TokenKind
  deriving DecidableEq, Repr

namespace SyntaxError

/-- The error for token `t` where `expected` was expected (`new`). -/
def ofToken (t : Token) (expected : String) : SyntaxError := ⟨t.line, expected, t.kind⟩

/-- The one-line message. -/
def message (e : SyntaxError) : String :=
  "Error at line: " ++ toString e.line.toNat ++ " | Expected: " ++ e.expected ++
    " | Found: " ++ e.found.name

end SyntaxError
end StatementLang
