import StatementLang.Lexical.Lexer
/-!
# Token listings

A listing has one line per token: its line number, the name of its kind and its text, the first two
in columns that grow where they have to.
-/
namespace StatementLang

/-- `s` at the left of a column at least `width` characters wide. -/
def padRight (width : Nat) (s : String) : String :=
  s ++ String.ofList (List.replicate (width - s.length) ' ')

/-- The line of a token. -/
def Token.listingLine (t : Token) : String :=
  padRight 5 (toString t.line.toNat) ++ " " ++ padRight 16 t.kind.name ++ " " ++ t.text ++ "\n"

/-- The tokens of a source text, one per line (`token_listing`). -/
def listing (source : String) : String :=
  String.join ((lex source).map Token.listingLine)

end StatementLang
