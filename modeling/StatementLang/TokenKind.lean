/-!
# Token kinds

The closed alphabet of the statement language: what is skipped between tokens, punctuation,
operators, keywords, the three classes of words with a value, and the two kinds that stand for
input that is no token and for the end of the input.

Here and in the other modules a name in parentheses at the end of a description, such as
`is_trivia`, is what the program itself calls the thing described.
-/
namespace StatementLang

inductive TokenKind where
  | whitespace | lineComment
  | semicolon | comma | lparen | rparen | assign
  | plus | minus | star | slash
  | greater | greaterEqual | equal | notEqual | less | lessEqual
  | kwBegin | kwEnd | kwIf | kwThen | kwElse | kwWhile | kwLoop | kwCall | kwUntil | kwDo | kwFor
  | ident | number | string
  | error | eof
  deriving DecidableEq, Repr, Inhabited

namespace TokenKind

/-- Every kind, in the order of the codes. -/
def all : List TokenKind :=
  [whitespace, lineComment, semicolon, comma, lparen, rparen, assign, plus, minus, star, slash,
   greater, greaterEqual, equal, notEqual, less, lessEqual, kwBegin, kwEnd, kwIf, kwThen, kwElse,
   kwWhile, kwLoop, kwCall, kwUntil, kwDo, kwFor, ident, number, string, error, eof]

/-- The number of a kind, counted from 0 in the order of `all`. -/
def code (k : TokenKind) : Nat := all.idxOf k

/-- Skipped between tokens (`is_trivia`). -/
def isTrivia : TokenKind → Bool
  | whitespace | lineComment => true
  | _ => false

/-- The spelling of such a token varies, so the token keeps its lexeme (`has_value`). -/
def keepsLexeme : TokenKind → Bool
  | ident | number | string | error => true
  | _ => false

/-- The operators that compare the two sides of a condition (`is_relational_op`). -/
def isRelational : TokenKind → Bool
  | greater | greaterEqual | equal | notEqual | less | lessEqual => true
  | _ => false

/-- How messages and dumps call a kind; for punctuation, operators and keywords it is their one
spelling. -/
def name : TokenKind → String
  | whitespace => "whitespace" | lineComment => "comment"
  | semicolon => ";" | comma => "," | lparen => "(" | rparen => ")" | assign => ":="
  | plus => "+" | minus => "-" | star => "*" | slash => "/"
  | greater => ">" | greaterEqual => ">=" | equal => "=" | notEqual => "!="
  | less => "<" | lessEqual => "<="
  | kwBegin => "begin" | kwEnd => "end" | kwIf => "if" | kwThen => "then" | kwElse => "else"
  | kwWhile => "while" | kwLoop => "loop" | kwCall => "call" | kwUntil => "until"
  | kwDo => "do" | kwFor => "for"
  | ident => "identifier" | number => "number constant" | string => "string constant"
  | error => "error" | eof => "end of file"

/-- The one-word label of a kind in tree dumps. -/
def label : TokenKind → String
  | whitespace => "Whitespace" | lineComment => "LineComment"
  | semicolon => "Semicolon" | comma => "Comma" | lparen => "LParen" | rparen => "RParen"
  | assign => "Assign" | plus => "Plus" | minus => "Minus" | star => "Star" | slash => "Slash"
  | greater => "Greater" | greaterEqual => "GreaterEqual" | equal => "Equal"
  | notEqual => "NotEqual" | less => "Less" | lessEqual => "LessEqual"
  | kwBegin => "KwBegin" | kwEnd => "KwEnd" | kwIf => "KwIf" | kwThen => "KwThen"
  | kwElse => "KwElse" | kwWhile => "KwWhile" | kwLoop => "KwLoop" | kwCall => "KwCall"
  | kwUntil => "KwUntil" | kwDo => "KwDo" | kwFor => "KwFor"
  | ident => "Ident" | number => "NumberLit" | string => "StringLit"
  | error => "Error" | eof => "Eof"

theorem mem_all (k : TokenKind) : k ∈ all := by cases k <;> decide

theorem name_injective {k l : TokenKind} (h : k.name = l.name) : k = l := by
  have key : ∀ k ∈ all, ∀ l ∈ all, k.name = l.name → k = l := by decide
  exact key k (mem_all k) l (mem_all l) h

theorem label_injective {k l : TokenKind} (h : k.label = l.label) : k = l := by
  have key : ∀ k ∈ all, ∀ l ∈ all, k.label = l.label → k = l := by decide
  exact key k (mem_all k) l (mem_all l) h

end TokenKind
end StatementLang
