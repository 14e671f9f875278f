import StatementLang.Lexical.Pattern
/-!
# Lexemes

`scan` cuts the first lexeme off a text: the longest piece that some kind of token describes, a
keyword before an identifier of the same length. Where no kind fits, the lexeme is an error: one
character, or an opening quote together with the rest of its line. Scanning loses nothing
(`append_of_scan`) and always moves on (`ne_nil_of_scan`).

The program has its scanner generated by a library from the pattern that each kind declares; what is
written here is the behaviour of that library on these patterns.
-/
namespace StatementLang.Lexical

/-- A piece of source text and what it is. -/
structure Lexeme where
  kind : TokenKind
  chars : List Char
  deriving DecidableEq, Repr

/-- Spelled like identifiers, but reserved. -/
def keywords : List TokenKind :=
  [.kwBegin, .kwEnd, .kwIf, .kwThen, .kwElse, .kwWhile, .kwLoop, .kwCall, .kwUntil, .kwDo, .kwFor]

/-- Punctuation and operators, a longer spelling before the shorter ones it begins with. -/
def symbols : List TokenKind :=
  [.assign, .greaterEqual, .notEqual, .lessEqual, .semicolon, .comma, .lparen, .rparen, .plus,
   .minus, .star, .slash, .greater, .equal, .less]

/-- The keyword spelled `w`, if there is one. -/
def keyword? (w : List Char) : Option TokenKind := keywords.find? fun k => k.name.toList == w

/-- The symbol that `s` begins with, the longest if there are two. -/
def symbol? (s : List Char) : Option TokenKind := symbols.find? fun k => k.name.toList.isPrefixOf s

/-- A word after its first letter `c`. -/
def scanWord (c : Char) (s : List Char) : Lexeme × List Char :=
  let w := c :: s.takeWhile isWordChar
  (⟨(keyword? w).getD .ident, w⟩, s.dropWhile isWordChar)

/-- A number constant after its first digit `c`. A point belongs to it only if a digit follows. -/
def scanNumber (c : Char) (s : List Char) : Lexeme × List Char :=
  let whole := c :: s.takeWhile isDigit
  match s.dropWhile isDigit with
  | '.' :: d :: r =>
    if isDigit d then
      (⟨.number, whole ++ '.' :: d :: r.takeWhile isDigit⟩, r.dropWhile isDigit)
    else (⟨.number, whole⟩, '.' :: d :: r)
  | r => (⟨.number, whole⟩, r)

/-- A string constant after its opening quote; an error if its line has no closing quote. -/
def scanQuoted (s : List Char) : Lexeme × List Char :=
  let body := '"' :: s.takeWhile isInQuotes
  match s.dropWhile isInQuotes with
  | '"' :: r => (⟨.string, body ++ ['"']⟩, r)
  | r => (⟨.error, body⟩, r)

/-- A comment, a symbol, or one character that begins no token. -/
def scanSymbol (c : Char) (s : List Char) : Lexeme × List Char :=
  if c = '/' ∧ s.head? = some '/' then
    (⟨.lineComment, c :: s.takeWhile isInLine⟩, s.dropWhile isInLine)
  else
    match symbol? (c :: s) with
    | some k => (⟨k, k.name.toList⟩, (c :: s).drop k.name.toList.length)
    | none => (⟨.error, [c]⟩, s)

/-- The first lexeme of a text and what follows it. -/
def scan : List Char → Option (Lexeme × List Char)
  | [] => none
  | c :: s =>
    if isBlank c then some (⟨.whitespace, c :: s.takeWhile isBlank⟩, s.dropWhile isBlank)
    else if isLetter c then some (scanWord c s)
    else if isDigit c then some (scanNumber c s)
    else if c = '"' then some (scanQuoted s)
    else some (scanSymbol c s)

/-! ## Scanning loses nothing and moves on -/

theorem append_scanWord (c : Char) (s : List Char) :
    (scanWord c s).1.chars ++ (scanWord c s).2 = c :: s := by
  simp [scanWord, List.takeWhile_append_dropWhile]

theorem append_scanNumber (c : Char) (s : List Char) :
    (scanNumber c s).1.chars ++ (scanNumber c s).2 = c :: s := by
  have hs := List.takeWhile_append_dropWhile (p := isDigit) (l := s)
  unfold scanNumber
  split
  · rename_i d r hr
    rw [hr] at hs
    split
    · simp [List.takeWhile_append_dropWhile, hs]
    · simp [hs]
  · simp [hs]

theorem append_scanQuoted (s : List Char) :
    (scanQuoted s).1.chars ++ (scanQuoted s).2 = '"' :: s := by
  have hs := List.takeWhile_append_dropWhile (p := isInQuotes) (l := s)
  unfold scanQuoted
  split
  · rename_i r hr
    rw [hr] at hs
    simp [hs]
  · simp [hs]

theorem isPrefixOf_of_symbol? {s : List Char} {k : TokenKind} (h : symbol? s = some k) :
    k.name.toList.isPrefixOf s :=
  List.find?_some (p := fun k : TokenKind => k.name.toList.isPrefixOf s) h

theorem mem_of_symbol? {s : List Char} {k : TokenKind} (h : symbol? s = some k) :
    k ∈ symbols := List.mem_of_find?_eq_some h

theorem append_scanSymbol (c : Char) (s : List Char) :
    (scanSymbol c s).1.chars ++ (scanSymbol c s).2 = c :: s := by
  unfold scanSymbol
  split
  · simp [List.takeWhile_append_dropWhile]
  · split
    · rename_i k hk
      obtain ⟨r, hr⟩ := List.isPrefixOf_iff_prefix.1 (isPrefixOf_of_symbol? hk)
      simp [← hr]
    · rfl

theorem append_of_scan {s r : List Char} {x : Lexeme} (h : scan s = some (x, r)) :
    x.chars ++ r = s := by
  cases s with
  | nil => simp [scan] at h
  | cons c s =>
    simp only [scan] at h
    split at h
    · cases h; simp [List.takeWhile_append_dropWhile]
    split at h
    · have := append_scanWord c s; rw [Option.some.inj h] at this; exact this
    split at h
    · have := append_scanNumber c s; rw [Option.some.inj h] at this; exact this
    split at h
    · rename_i hc
      have := append_scanQuoted s; rw [Option.some.inj h] at this; rw [hc]; exact this
    · have := append_scanSymbol c s; rw [Option.some.inj h] at this; exact this

theorem scanNumber_ne_nil (c : Char) (s : List Char) : (scanNumber c s).1.chars ≠ [] := by
  unfold scanNumber
  split
  · split <;> simp
  · simp

theorem scanQuoted_ne_nil (s : List Char) : (scanQuoted s).1.chars ≠ [] := by
  unfold scanQuoted
  split <;> simp

theorem scanSymbol_ne_nil (c : Char) (s : List Char) : (scanSymbol c s).1.chars ≠ [] := by
  unfold scanSymbol
  split
  · simp
  · split
    · rename_i k hk
      have key : ∀ k ∈ symbols, k.name.toList ≠ [] := by decide
      exact key k (mem_of_symbol? hk)
    · simp

theorem ne_nil_of_scan {s r : List Char} {x : Lexeme} (h : scan s = some (x, r)) :
    x.chars ≠ [] := by
  cases s with
  | nil => simp [scan] at h
  | cons c s =>
    simp only [scan] at h
    split at h
    · cases h; simp
    split at h
    · cases h; simp
    split at h
    · have := scanNumber_ne_nil c s; rw [Option.some.inj h] at this; exact this
    split at h
    · have := scanQuoted_ne_nil s; rw [Option.some.inj h] at this; exact this
    · have := scanSymbol_ne_nil c s; rw [Option.some.inj h] at this; exact this

theorem length_lt_of_scan {s r : List Char} {x : Lexeme} (h : scan s = some (x, r)) :
    r.length < s.length := by
  have hpos := List.length_pos_iff.2 (ne_nil_of_scan h)
  rw [← append_of_scan h, List.length_append]
  omega

end StatementLang.Lexical
