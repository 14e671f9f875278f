import StatementLang.TokenKind
/-!
# Lexical patterns

Regular patterns over characters with their meaning as a relation, the character classes of the
statement language, and the pattern of each kind of token. Nothing here searches: `Pattern.Matches`
says which texts a pattern describes, and the scanner is written without it.
-/
namespace StatementLang.Lexical

/-- Separates tokens: space, tab, carriage return, line feed and form feed. -/
def isBlank (c : Char) : Bool :=
  c == ' ' || c == '\t' || c == '\r' || c == '\n' || c == '\x0c'

/-- Begins an identifier or a keyword: an ASCII letter. -/
def isLetter (c : Char) : Bool := c.isAlpha

/-- Continues an identifier or a keyword: an ASCII letter or digit, or an underscore. -/
def isWordChar (c : Char) : Bool := c.isAlphanum || c == '_'

/-- An ASCII digit. -/
def isDigit (c : Char) : Bool := c.isDigit

/-- Anything but a carriage return or a line feed. -/
def isInLine (c : Char) : Bool := c != '\r' && c != '\n'

/-- What may stand between the quotes of a string constant. -/
def isInQuotes (c : Char) : Bool := c != '"' && isInLine c

inductive Pattern where
  | empty
  | char (p : Char → Bool)
  | seq (a b : Pattern)
  | optional (a : Pattern)
  | many (a : Pattern)

namespace Pattern

/-- The texts that a pattern describes. -/
inductive Matches : Pattern → List Char → Prop
  | empty : Matches .empty []
  | char {p : Char → Bool} {c : Char} : p c = true → Matches (.char p) [c]
  | seq {a b : Pattern} {s t : List Char} : Matches a s → Matches b t → Matches (.seq a b) (s ++ t)
  | absent {a : Pattern} : Matches (.optional a) []
  | present {a : Pattern} {s : List Char} : Matches a s → Matches (.optional a) s
  | stop {a : Pattern} : Matches (.many a) []
  | again {a : Pattern} {s t : List Char} :
      Matches a s → Matches (.many a) t → Matches (.many a) (s ++ t)

/-- One fixed text. -/
def literal : List Char → Pattern
  | [] => .empty
  | c :: cs => .seq (.char (· == c)) (literal cs)

/-- One or more. -/
def oneOrMore (a : Pattern) : Pattern := .seq a (.many a)

theorem matches_literal_iff {w s : List Char} : Matches (literal w) s ↔ s = w := by
  induction w generalizing s with
  | nil =>
    constructor
    · intro h; cases h; rfl
    · rintro rfl; exact .empty
  | cons c cs ih =>
    constructor
    · intro h
      cases h with
      | seq h₁ h₂ =>
        cases h₁ with
        | char hc => simp [ih.1 h₂, beq_iff_eq.1 hc]
    · rintro rfl
      exact .seq (s := [c]) (.char (by simp)) (ih.2 rfl)

theorem matches_many_char_iff {p : Char → Bool} {s : List Char} :
    Matches (.many (.char p)) s ↔ s.all p := by
  constructor
  · intro h
    generalize hq : Pattern.many (.char p) = q at h
    induction h with
    | stop => rfl
    | again h₁ _ _ ih =>
      cases hq
      cases h₁ with
      | char hc => simp [hc, ih rfl]
    | _ => cases hq
  · intro h
    induction s with
    | nil => exact .stop
    | cons c cs ih =>
      simp only [List.all_cons, Bool.and_eq_true] at h
      exact .again (s := [c]) (.char h.1) (ih h.2)

end Pattern

/-- What the tokens of a kind look like in a source text. The two kinds that no text spells have no
pattern. -/
def pattern? : TokenKind → Option Pattern
  | .whitespace => some (.oneOrMore (.char isBlank))
  | .lineComment => some (.seq (.literal ['/', '/']) (.many (.char isInLine)))
  | .ident => some (.seq (.char isLetter) (.many (.char isWordChar)))
  | .number =>
    some (.seq (.oneOrMore (.char isDigit))
      (.optional (.seq (.literal ['.']) (.oneOrMore (.char isDigit)))))
  | .string => some (.seq (.literal ['"']) (.seq (.many (.char isInQuotes)) (.literal ['"'])))
  | .error | .eof => none
  | k => some (.literal k.name.toList)

end StatementLang.Lexical
