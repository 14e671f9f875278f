import Mathlib.Data.List.Find
import Mathlib.Data.List.TakeWhile
import StatementLang.Proofs.Lexical.Described
import StatementLang.Proofs.Lexical.Lexemes
/-!
# Spelling tokens

A token that is spelled as its kind asks (`Token.WellSpelled`) is scanned as itself wherever white
space or the end of the text follows it (`scan_of_wellSpelled`), so the texts of such tokens joined
by single spaces are lexed as these tokens, all on the first line (`lex_spelling`).
-/
namespace StatementLang

namespace Lexical

/-! ## Before white space -/

theorem mem_of_isBlank {c : Char} (h : isBlank c = true) : c ∈ [' ', '\t', '\r', '\n', '\x0c'] := by
  simpa [isBlank, or_assoc] using h

theorem isLetter_eq_false_of_isDigit {c : Char} (h : isDigit c = true) : isLetter c = false := by
  delta isDigit isLetter Char.isDigit Char.isAlpha Char.isUpper Char.isLower at *
  grind

/-- The text is at its end, or goes on with white space. -/
def AtBlank (s : List Char) : Prop := ∀ c ∈ s.head?, isBlank c = true

theorem atBlank_nil : AtBlank [] := by simp [AtBlank]

theorem atBlank_space (s : List Char) : AtBlank (' ' :: s) := by simp [AtBlank, isBlank]

/-- `p` holds of no character that separates tokens. -/
def StopsAtBlank (p : Char → Bool) : Prop := ∀ c, isBlank c = true → p c = false

theorem stopsAtBlank_of {p : Char → Bool} (h : [' ', '\t', '\r', '\n', '\x0c'].any p = false) :
    StopsAtBlank p :=
  fun c hc => Bool.eq_false_iff.2 (List.any_eq_false.1 h c (mem_of_isBlank hc))

theorem stopsAtBlank_isLetter : StopsAtBlank isLetter := stopsAtBlank_of (by decide)

theorem stopsAtBlank_isWordChar : StopsAtBlank isWordChar := stopsAtBlank_of (by decide)

theorem stopsAtBlank_isDigit : StopsAtBlank isDigit := stopsAtBlank_of (by decide)

theorem isBlank_eq_false {p : Char → Bool} (hp : StopsAtBlank p) {c : Char} (hc : p c = true) :
    isBlank c = false := by
  cases hblank : isBlank c with
  | false => rfl
  | true => rw [hp c hblank] at hc; cases hc

section Runs

variable {p : Char → Bool} {rest : List Char}

theorem takeWhile_of_atBlank (hp : StopsAtBlank p) (hrest : AtBlank rest) :
    rest.takeWhile p = [] := by
  cases rest with
  | nil => rfl
  | cons c s => rw [List.takeWhile_cons, hp c (hrest c rfl)]; rfl

theorem dropWhile_of_atBlank (hp : StopsAtBlank p) (hrest : AtBlank rest) :
    rest.dropWhile p = rest := by
  cases rest with
  | nil => rfl
  | cons c s => rw [List.dropWhile_cons, hp c (hrest c rfl)]; rfl

/-- A run of characters that satisfy `p` ends where white space follows it. -/
theorem takeWhile_append_of_atBlank (hp : StopsAtBlank p) (hrest : AtBlank rest) {w : List Char}
    (hw : ∀ c ∈ w, p c = true) : (w ++ rest).takeWhile p = w := by
  rw [List.takeWhile_append_of_pos hw, takeWhile_of_atBlank hp hrest, List.append_nil]

theorem dropWhile_append_of_atBlank (hp : StopsAtBlank p) (hrest : AtBlank rest) {w : List Char}
    (hw : ∀ c ∈ w, p c = true) : (w ++ rest).dropWhile p = rest := by
  rw [List.dropWhile_append_of_pos hw, dropWhile_of_atBlank hp hrest]

end Runs

/-! ## Words -/

variable {rest : List Char}

/-- Spelled like an identifier; keywords are, too. -/
def isWord : List Char → Bool
  | [] => false
  | c :: w => isLetter c && w.all isWordChar

theorem scan_word {w : List Char} (hw : isWord w = true) (hrest : AtBlank rest) :
    scan (w ++ rest) = some (⟨(keyword? w).getD .ident, w⟩, rest) := by
  cases w with
  | nil => cases hw
  | cons c w =>
    obtain ⟨hc, hw⟩ := (Bool.and_eq_true _ _).mp hw
    have hblank : isBlank c = false := isBlank_eq_false stopsAtBlank_isLetter hc
    rw [List.all_eq_true] at hw
    rw [List.cons_append, scan, if_neg (Bool.eq_false_iff.1 hblank), if_pos hc, scanWord,
      takeWhile_append_of_atBlank stopsAtBlank_isWordChar hrest hw,
      dropWhile_append_of_atBlank stopsAtBlank_isWordChar hrest hw]

theorem keyword?_eq_none {s : String} (h : ∀ k ∈ keywords, s ≠ k.name) :
    keyword? s.toList = none := by
  refine List.find?_eq_none.2 fun k hk heq => h k hk ?_
  exact (String.toList_inj.1 (beq_iff_eq.1 heq)).symm

theorem keyword?_name {k : TokenKind} (hk : k ∈ keywords) : keyword? k.name.toList = some k := by
  have key : ∀ k ∈ keywords, keyword? k.name.toList = some k := by decide
  exact key k hk

theorem scan_keyword {k : TokenKind} (hk : k ∈ keywords) (hrest : AtBlank rest) :
    scan (k.name.toList ++ rest) = some (⟨k, k.name.toList⟩, rest) := by
  have hword : ∀ k ∈ keywords, isWord k.name.toList = true := by decide
  rw [scan_word (hword k hk) hrest, keyword?_name hk]
  rfl

/-! ## Numbers -/

theorem scan_of_isDigit {c : Char} (hc : isDigit c = true) (s : List Char) :
    scan (c :: s) = some (scanNumber c s) := by
  have hblank : isBlank c = false := isBlank_eq_false stopsAtBlank_isDigit hc
  have hletter : isLetter c = false := isLetter_eq_false_of_isDigit hc
  rw [scan, if_neg (Bool.eq_false_iff.1 hblank), if_neg (Bool.eq_false_iff.1 hletter), if_pos hc]

theorem scan_whole {c : Char} {w : List Char} (hc : isDigit c = true)
    (hw : ∀ d ∈ w, isDigit d = true) (hrest : AtBlank rest) :
    scan (c :: w ++ rest) = some (⟨.number, c :: w⟩, rest) := by
  rw [List.cons_append, scan_of_isDigit hc, scanNumber,
    takeWhile_append_of_atBlank stopsAtBlank_isDigit hrest hw,
    dropWhile_append_of_atBlank stopsAtBlank_isDigit hrest hw]
  split
  · -- a point is no white space
    cases hrest _ rfl
  · rfl

theorem scan_decimal {c d : Char} {w v : List Char} (hc : isDigit c = true)
    (hw : ∀ d ∈ w, isDigit d = true) (hd : isDigit d = true) (hv : ∀ d ∈ v, isDigit d = true)
    (hrest : AtBlank rest) :
    scan (c :: w ++ '.' :: d :: v ++ rest) = some (⟨.number, c :: w ++ '.' :: d :: v⟩, rest) := by
  have hdot : isDigit '.' = false := by decide
  have htake : (w ++ '.' :: d :: (v ++ rest)).takeWhile isDigit = w := by
    simp [List.takeWhile_append_of_pos hw, hdot]
  have hdrop : (w ++ '.' :: d :: (v ++ rest)).dropWhile isDigit = '.' :: d :: (v ++ rest) := by
    simp [List.dropWhile_append_of_pos hw, hdot]
  have hassoc : c :: w ++ '.' :: d :: v ++ rest = c :: (w ++ '.' :: d :: (v ++ rest)) := by simp
  rw [hassoc, scan_of_isDigit hc, scanNumber, hdrop, htake]
  simp only [hd, if_true, takeWhile_append_of_atBlank stopsAtBlank_isDigit hrest hv,
    dropWhile_append_of_atBlank stopsAtBlank_isDigit hrest hv, List.cons_append]

/-! ## Strings -/

theorem scan_string {w : List Char} (hw : ∀ c ∈ w, isInQuotes c = true) (rest : List Char) :
    scan ('"' :: w ++ '"' :: rest) = some (⟨.string, '"' :: w ++ ['"']⟩, rest) := by
  have hquote : isInQuotes '"' = false := by decide
  have htake : (w ++ '"' :: rest).takeWhile isInQuotes = w := by
    simp [List.takeWhile_append_of_pos hw, hquote]
  have hdrop : (w ++ '"' :: rest).dropWhile isInQuotes = '"' :: rest := by
    simp [List.dropWhile_append_of_pos hw, hquote]
  show some (scanQuoted (w ++ '"' :: rest)) = _
  rw [scanQuoted, hdrop, htake]
  rfl

/-! ## Symbols -/

/-- What has no white space in it and begins a text begins the part before the white space. -/
theorem prefix_append_iff {w u : List Char} (hw : w.any isBlank = false) (hrest : AtBlank rest) :
    w <+: u ++ rest ↔ w <+: u := by
  refine ⟨fun h => ?_, fun h => h.trans (List.prefix_append u rest)⟩
  rcases List.prefix_or_prefix_of_prefix h (List.prefix_append u rest) with hwu | ⟨v, rfl⟩
  · exact hwu
  · have hv : v <+: rest := (List.prefix_append_right_inj u).1 h
    cases v with
    | nil => exact (List.append_nil u).symm ▸ List.prefix_rfl
    | cons c v =>
      obtain ⟨s, rfl⟩ := hv
      exact absurd (hrest c rfl) (List.any_eq_false.1 hw c (by simp))

/-- Of two symbols that a text could begin with, white space does not make the longer one fit. -/
theorem symbol?_append (hrest : AtBlank rest) (u : List Char) :
    symbol? (u ++ rest) = symbol? u := by
  refine List.find?_congr fun k hk => ?_
  have key : ∀ k ∈ symbols, k.name.toList.any isBlank = false := by decide
  rw [Bool.eq_iff_iff, List.isPrefixOf_iff_prefix, List.isPrefixOf_iff_prefix,
    prefix_append_iff (key k hk) hrest]

/-- Neither white space nor the beginning of a word, a number or a string. -/
def isMark (c : Char) : Bool := !isBlank c && !isLetter c && !isDigit c && c != '"'

theorem scan_of_isMark {c : Char} (hc : isMark c = true) (s : List Char) :
    scan (c :: s) = some (scanSymbol c s) := by
  simp only [isMark, Bool.and_eq_true, Bool.not_eq_true', bne_iff_ne] at hc
  obtain ⟨⟨⟨hblank, hletter⟩, hdigit⟩, hquote⟩ := hc
  rw [scan, if_neg (Bool.eq_false_iff.1 hblank), if_neg (Bool.eq_false_iff.1 hletter),
    if_neg (Bool.eq_false_iff.1 hdigit), if_neg hquote]

theorem scan_symbol {k : TokenKind} (hk : k ∈ symbols) (hrest : AtBlank rest) :
    scan (k.name.toList ++ rest) = some (⟨k, k.name.toList⟩, rest) := by
  have hfound : ∀ k ∈ symbols, symbol? k.name.toList = some k := by decide
  have hmarks : ∀ k ∈ symbols, k.name.toList.all isMark = true := by decide
  have hslash : ∀ k ∈ symbols, '/' ∈ k.name.toList → k.name.toList = ['/'] := by decide
  have hname : ∀ k ∈ symbols, k.name.toList ≠ [] := by decide
  obtain ⟨c, w, hcw⟩ := List.exists_cons_of_ne_nil (hname k hk)
  have hmark : isMark c = true :=
    List.all_eq_true.1 (hmarks k hk) c (hcw ▸ List.mem_cons_self)
  -- the only symbol with a slash is one slash, and no second one follows it
  have hcomment : ¬(c = '/' ∧ (w ++ rest).head? = some '/') := by
    rintro ⟨rfl, hnext⟩
    have hw : '/' :: w = ['/'] := hcw ▸ hslash k hk (hcw ▸ List.mem_cons_self)
    rw [(List.cons.inj hw).2, List.nil_append] at hnext
    cases hrest _ hnext
  have hsymbol : symbol? (c :: (w ++ rest)) = some k := by
    rw [← List.cons_append, symbol?_append hrest, ← hcw, hfound k hk]
  rw [hcw, List.cons_append, scan_of_isMark hmark, scanSymbol, if_neg hcomment, hsymbol]
  simp [hcw]

end Lexical

open Lexical Pattern

/-- The text of the token is one that the pattern of its kind describes, and an identifier is not
a keyword. -/
structure Token.WellSpelled (t : Token) : Prop where
  matches_kind : ∃ p, pattern? t.kind = some p ∧ Matches p t.text.toList
  not_reserved : t.kind = .ident → ∀ k ∈ keywords, t.text ≠ k.name

namespace Lexical

variable {t : Token} {rest : List Char}

theorem describes_of_wellSpelled (ht : t.WellSpelled) {k : TokenKind} (hk : t.kind = k) :
    Describes k t.text.toList := hk ▸ ht.matches_kind

theorem text_of_fixed (ht : t.WellSpelled) (hk : t.kind ∈ keywords ++ symbols) :
    t.text = t.kind.name :=
  String.toList_inj.1 ((describes_fixed_iff hk).1 (describes_of_wellSpelled ht rfl))

theorem wellSpelled_of_fixed {k : TokenKind} (hk : k ∈ keywords ++ symbols) (n : UInt32) :
    Token.WellSpelled ⟨k, n, none⟩ where
  matches_kind := (describes_fixed_iff hk).2 rfl
  not_reserved h := by
    have hident : TokenKind.ident ∉ keywords ++ symbols := by decide
    exact absurd (show k = .ident from h) fun hk' => hident (hk' ▸ hk)

theorem scan_ident (ht : t.WellSpelled) (hk : t.kind = .ident) (hrest : AtBlank rest) :
    scan (t.text.toList ++ rest) = some (⟨.ident, t.text.toList⟩, rest) := by
  obtain ⟨c, w, htext, hc, hw⟩ := describes_ident_iff.1 (describes_of_wellSpelled ht hk)
  have hword : isWord t.text.toList = true := by
    rw [htext, isWord, hc, List.all_eq_true.2 hw]
    rfl
  rw [scan_word hword hrest, keyword?_eq_none (ht.not_reserved hk)]
  rfl

theorem scan_number (ht : t.WellSpelled) (hk : t.kind = .number) (hrest : AtBlank rest) :
    scan (t.text.toList ++ rest) = some (⟨.number, t.text.toList⟩, rest) := by
  obtain ⟨c, w, hc, hw, htext | ⟨d, v, htext, hd, hv⟩⟩ :=
    describes_number_iff.1 (describes_of_wellSpelled ht hk)
  · rw [htext]
    exact scan_whole hc hw hrest
  · rw [htext, ← List.cons_append]
    exact scan_decimal hc hw hd hv hrest

theorem scan_quoted (ht : t.WellSpelled) (hk : t.kind = .string) :
    scan (t.text.toList ++ rest) = some (⟨.string, t.text.toList⟩, rest) := by
  obtain ⟨w, htext, hw⟩ := describes_string_iff.1 (describes_of_wellSpelled ht hk)
  rw [htext]
  simpa using scan_string hw rest

theorem kind_of_wellSpelled (ht : t.WellSpelled) (hk : t.kind.isTrivia = false) :
    t.kind ∈ keywords ++ symbols ∨ t.kind ∈ [.ident, .number, .string] := by
  have key : ∀ k ∈ [TokenKind.whitespace, .lineComment, .ident, .number, .string],
      k.isTrivia = false → k ∈ [.ident, .number, .string] := by decide
  exact (mem_of_describes (describes_of_wellSpelled ht rfl)).imp_right fun h => key t.kind h hk

theorem scan_of_wellSpelled (ht : t.WellSpelled) (hk : t.kind.isTrivia = false)
    (hrest : AtBlank rest) :
    scan (t.text.toList ++ rest) = some (⟨t.kind, t.text.toList⟩, rest) := by
  rcases kind_of_wellSpelled ht hk with hfixed | hvaried
  · rw [text_of_fixed ht hfixed]
    rcases List.mem_append.1 hfixed with hword | hsymbol
    · exact scan_keyword hword hrest
    · exact scan_symbol hsymbol hrest
  · simp only [List.mem_cons, List.not_mem_nil, or_false] at hvaried
    rcases hvaried with h | h | h
    · rw [h]; exact scan_ident ht h hrest
    · rw [h]; exact scan_number ht h hrest
    · rw [h]; exact scan_quoted ht h

/-! ## Texts of well-spelled tokens -/

theorem head_of_scan {s r : List Char} {x : Lexeme} (h : scan s = some (x, r))
    (hx : x.kind ≠ .whitespace) : ∀ c ∈ s.head?, isBlank c = false := by
  cases s with
  | nil => cases h
  | cons c s =>
    rintro d hd
    cases hd
    refine Bool.eq_false_iff.2 fun hblank => hx ?_
    rw [scan, if_pos hblank] at h
    cases h
    rfl

theorem scan_space {s : List Char} (hs : ∀ c ∈ s.head?, isBlank c = false) :
    scan (' ' :: s) = some (⟨.whitespace, [' ']⟩, s) := by
  have hblank : isBlank ' ' = true := by decide
  cases s with
  | nil => rfl
  | cons c s =>
    have hc : isBlank c = false := hs c rfl
    rw [scan, if_pos hblank, List.takeWhile_cons, List.dropWhile_cons, hc]
    rfl

/-- A lexeme that makes a token, and that is scanned wherever white space follows it. -/
structure Lexeme.Separable (x : Lexeme) : Prop where
  token : x.kind.isTrivia = false
  scans : ∀ rest, AtBlank rest → scan (x.chars ++ rest) = some (x, rest)

theorem Lexeme.Separable.kind_ne {x : Lexeme} (hx : x.Separable) : x.kind ≠ .whitespace :=
  ne_whitespace_of_token hx.token

/-- A single space. -/
def space : Lexeme := ⟨.whitespace, [' ']⟩

/-- The texts of some lexemes, each behind a space. -/
def spaced (xs : List Lexeme) : List Char := xs.flatMap fun x => ' ' :: x.chars

theorem atBlank_spaced (xs : List Lexeme) : AtBlank (spaced xs) := by
  cases xs with
  | nil => exact atBlank_nil
  | cons x xs => exact atBlank_space _

theorem intercalate_chars (x : Lexeme) (xs : List Lexeme) :
    [' '].intercalate ((x :: xs).map Lexeme.chars) = x.chars ++ spaced xs := by
  induction xs generalizing x with
  | nil => simp [spaced]
  | cons y ys ih =>
    rw [List.map_cons, List.map_cons, List.intercalate_cons_cons, ← List.map_cons, ih]
    simp [spaced]

theorem lexemes_spaced {xs : List Lexeme} (h : ∀ x ∈ xs, x.Separable) :
    lexemes (spaced xs) = xs.flatMap fun x => [space, x] := by
  induction xs with
  | nil => exact lexemes_nil
  | cons x xs ih =>
    obtain ⟨hx, hxs⟩ := List.forall_mem_cons.1 h
    have hscan := hx.scans _ (atBlank_spaced xs)
    have htext : spaced (x :: xs) = ' ' :: (x.chars ++ spaced xs) := by simp [spaced]
    rw [htext, lexemes_of_scan (scan_space (head_of_scan hscan hx.kind_ne)), lexemes_of_scan hscan,
      ih hxs]
    rfl

theorem lineFeeds_of_separable {x : Lexeme} (hx : x.Separable) : lineFeeds x.chars = 0 :=
  List.count_eq_zero.2 (lineFeed_not_mem_of_scan (hx.scans [] atBlank_nil) hx.kind_ne)

theorem tokensFrom_cons_of_separable {x : Lexeme} (hx : x.Separable) (n : UInt32)
    (xs : List Lexeme) : tokensFrom n (x :: xs) = x.toToken n :: tokensFrom n xs := by
  simp [tokensFrom, hx.token, lineFeeds_of_separable hx]

theorem tokensFrom_space (n : UInt32) (xs : List Lexeme) :
    tokensFrom n (space :: xs) = tokensFrom n xs := by
  simp [tokensFrom, space, lineFeeds, TokenKind.isTrivia]

theorem tokensFrom_spaced {xs : List Lexeme} (h : ∀ x ∈ xs, x.Separable) (n : UInt32) :
    tokensFrom n (xs.flatMap fun x => [space, x]) = xs.map (·.toToken n) := by
  induction xs with
  | nil => rfl
  | cons x xs ih =>
    obtain ⟨hx, hxs⟩ := List.forall_mem_cons.1 h
    rw [List.flatMap_cons, List.cons_append, List.singleton_append, tokensFrom_space,
      tokensFrom_cons_of_separable hx, ih hxs, List.map_cons]

/-- The tokens of some texts that are joined by single spaces. -/
theorem tokensFrom_intercalate {xs : List Lexeme} (h : ∀ x ∈ xs, x.Separable) (n : UInt32) :
    tokensFrom n (lexemes ([' '].intercalate (xs.map Lexeme.chars))) = xs.map (·.toToken n) := by
  cases xs with
  | nil => rw [List.map_nil, List.intercalate_nil, lexemes_nil]; rfl
  | cons x xs =>
    obtain ⟨hx, hxs⟩ := List.forall_mem_cons.1 h
    rw [intercalate_chars, lexemes_of_scan (hx.scans _ (atBlank_spaced xs)), lexemes_spaced hxs,
      tokensFrom_cons_of_separable hx, tokensFrom_spaced hxs, List.map_cons]

end Lexical

namespace Token

/-- The lexeme that the text of a token is. -/
def toLexeme (t : Token) : Lexeme := ⟨t.kind, t.text.toList⟩

/-- The token as it is read from its text on the first line. -/
def reread (t : Token) : Token := t.toLexeme.toToken 1

@[simp] theorem kind_reread (t : Token) : t.reread.kind = t.kind := rfl

/-- A text that is spelled well is read as it is written. -/
theorem text_reread {t : Token} (ht : t.WellSpelled) (hk : t.kind.isTrivia = false) :
    t.reread.text = t.text := by
  have hfixed : ∀ k ∈ keywords ++ symbols, k.keepsLexeme = false := by decide
  have hvaried : ∀ k ∈ [TokenKind.ident, .number, .string], k.keepsLexeme = true := by decide
  show (if t.kind.keepsLexeme then some (String.ofList t.text.toList) else none).getD t.kind.name =
    t.text
  rcases kind_of_wellSpelled ht hk with h | h
  · rw [if_neg (Bool.eq_false_iff.1 (hfixed _ h))]
    exact (text_of_fixed ht h).symm
  · rw [if_pos (hvaried _ h)]
    exact String.ofList_toList

end Token

/-- The texts of well-spelled tokens, joined by single spaces, are lexed as these tokens. -/
theorem lex_spelling {ts : List Token} (h : ∀ t ∈ ts, t.WellSpelled)
    (hk : ∀ t ∈ ts, t.kind.isTrivia = false) :
    lex (" ".intercalate (ts.map Token.text)) = ts.map Token.reread := by
  have hxs : ∀ x ∈ ts.map Token.toLexeme, x.Separable := by
    intro x hx
    obtain ⟨t, ht, rfl⟩ := List.mem_map.1 hx
    exact ⟨hk t ht, fun rest hrest => scan_of_wellSpelled (h t ht) (hk t ht) hrest⟩
  have htext : (" ".intercalate (ts.map Token.text)).toList =
      [' '].intercalate ((ts.map Token.toLexeme).map Lexeme.chars) := by
    rw [String.toList_intercalate, List.map_map, List.map_map]
    rfl
  rw [Lexer.lex_eq, htext, tokensFrom_intercalate hxs, List.map_map]
  rfl

end StatementLang
