import StatementLang.Proofs.Lexical.Positions
/-!
# Lexing line by line

No lexeme but white space goes past a line feed, so what is scanned before one does not depend on
what follows it (`scan_append_lineFeed`), and the tokens of a text are those of the part before a
line break and those of the part behind it, on later lines (`lex_lineBreak`).

White space is the exception: a run of it before the break and one behind it are scanned as one. It
makes no tokens, so only its lines are left to count (`tokensFrom_dropWhile_isBlank`).
-/
namespace StatementLang

/-- The token, but `n` lines further down. -/
def Token.later (n : Nat) (t : Token) : Token := { t with line := t.line + UInt32.ofNat n }

namespace Lexical

/-! ## Scanning up to a line feed -/

section Runs

variable {p : Char → Bool}

theorem takeWhile_append_lineFeed (hp : p '\n' = false) (u v : List Char) :
    (u ++ '\n' :: v).takeWhile p = u.takeWhile p := by
  induction u with
  | nil => simp [hp]
  | cons c u ih => by_cases hc : p c <;> simp [hc, ih]

theorem dropWhile_append_lineFeed (hp : p '\n' = false) (u v : List Char) :
    (u ++ '\n' :: v).dropWhile p = u.dropWhile p ++ '\n' :: v := by
  induction u with
  | nil => simp [hp]
  | cons c u ih => by_cases hc : p c <;> simp [hc, ih]

/-- A run that ends within a text does not go on behind it. -/
theorem run_append_of_dropWhile_ne_nil {u : List Char} (h : u.dropWhile p ≠ []) (v : List Char) :
    (u ++ v).takeWhile p = u.takeWhile p ∧ (u ++ v).dropWhile p = u.dropWhile p ++ v := by
  induction u with
  | nil => exact absurd rfl h
  | cons c u ih =>
    by_cases hc : p c = true
    · rw [List.dropWhile_cons, if_pos hc] at h
      simp [hc, ih h]
    · simp [hc]

end Runs

variable {c : Char} {s r u v : List Char} {x : Lexeme}

/-- What was cut off a text and its rest, with more text behind the rest. -/
def followedBy (v : List Char) (cut : Lexeme × List Char) : Lexeme × List Char :=
  (cut.1, cut.2 ++ v)

theorem scanWord_append_lineFeed (c : Char) (s v : List Char) :
    scanWord c (s ++ '\n' :: v) = followedBy ('\n' :: v) (scanWord c s) := by
  have hp : isWordChar '\n' = false := by decide
  simp only [scanWord, followedBy, takeWhile_append_lineFeed hp, dropWhile_append_lineFeed hp]

theorem scanNumber_append_lineFeed (c : Char) (s v : List Char) :
    scanNumber c (s ++ '\n' :: v) = followedBy ('\n' :: v) (scanNumber c s) := by
  have hp : isDigit '\n' = false := by decide
  rw [scanNumber, scanNumber, takeWhile_append_lineFeed hp, dropWhile_append_lineFeed hp]
  rcases s.dropWhile isDigit with _ | ⟨a, _ | ⟨d, r⟩⟩
  · rfl
  · -- the text ends with a point, and the line feed behind it is no digit
    by_cases ha : a = '.'
    · subst ha
      simp [hp, followedBy]
    · simp [ha, followedBy]
  · by_cases ha : a = '.'
    · subst ha
      by_cases hd : isDigit d = true
      · simp [hd, followedBy, takeWhile_append_lineFeed hp, dropWhile_append_lineFeed hp]
      · simp [hd, followedBy]
    · simp [ha, followedBy]

theorem scanQuoted_append_lineFeed (s v : List Char) :
    scanQuoted (s ++ '\n' :: v) = followedBy ('\n' :: v) (scanQuoted s) := by
  have hp : isInQuotes '\n' = false := by decide
  rw [scanQuoted, scanQuoted, takeWhile_append_lineFeed hp, dropWhile_append_lineFeed hp]
  rcases s.dropWhile isInQuotes with _ | ⟨a, r⟩
  · rfl
  · by_cases ha : a = '"'
    · subst ha
      rfl
    · simp [ha, followedBy]

theorem scanSymbol_append_lineFeed (c : Char) (s v : List Char) :
    scanSymbol c (s ++ '\n' :: v) = followedBy ('\n' :: v) (scanSymbol c s) := by
  have hp : isInLine '\n' = false := by decide
  have hblank : AtBlank ('\n' :: v) := by simp [AtBlank, isBlank]
  have hslash : (s ++ '\n' :: v).head? = some '/' ↔ s.head? = some '/' := by
    cases s <;> simp
  have hsymbol : symbol? (c :: (s ++ '\n' :: v)) = symbol? (c :: s) :=
    symbol?_append hblank (c :: s)
  unfold scanSymbol
  by_cases hcomment : c = '/' ∧ s.head? = some '/'
  · rw [if_pos hcomment, if_pos (by rwa [hslash]), takeWhile_append_lineFeed hp,
      dropWhile_append_lineFeed hp]
    rfl
  · rw [if_neg hcomment, if_neg (by rwa [hslash]), hsymbol]
    cases hk : symbol? (c :: s) with
    | none => rfl
    | some k =>
      have hle : k.name.toList.length ≤ (c :: s).length :=
        (List.isPrefixOf_iff_prefix.1 (isPrefixOf_of_symbol? hk)).length_le
      show (_, (c :: s ++ '\n' :: v).drop _) = (_, (c :: s).drop _ ++ '\n' :: v)
      rw [List.drop_append_of_le_length hle]

/-- A lexeme before a line feed is scanned as if the text ended there, unless it is white space up
to the line feed. -/
theorem scan_append_lineFeed (h : scan u = some (x, r)) (hx : x.kind = .whitespace → r ≠ [])
    (v : List Char) : scan (u ++ '\n' :: v) = some (x, r ++ '\n' :: v) := by
  cases u with
  | nil => cases h
  | cons c s =>
    rw [scan_cons] at h
    rw [List.cons_append, scan_cons]
    cases hc : head c with
    | blank =>
      simp only [hc, Option.some.injEq, Prod.mk.injEq] at h ⊢
      obtain ⟨rfl, rfl⟩ := h
      obtain ⟨htake, hdrop⟩ := run_append_of_dropWhile_ne_nil (hx rfl) ('\n' :: v)
      rw [htake, hdrop]
      exact ⟨rfl, rfl⟩
    | letter => simp_all [scanWord_append_lineFeed, followedBy]
    | digit => simp_all [scanNumber_append_lineFeed, followedBy]
    | quote => simp_all [scanQuoted_append_lineFeed, followedBy]
    | mark => simp_all [scanSymbol_append_lineFeed, followedBy]

/-! ## Tokens behind white space -/

/-- White space before a text only moves the tokens of the text to later lines. -/
theorem tokensFrom_dropWhile_isBlank (n : UInt32) (s : List Char) :
    tokensFrom n (lexemes s) =
      tokensFrom (n + UInt32.ofNat (lineFeeds (s.takeWhile isBlank)))
        (lexemes (s.dropWhile isBlank)) := by
  cases s with
  | nil => simp [lineFeeds]
  | cons c s =>
    by_cases hc : isBlank c = true
    · have hscan : scan (c :: s) =
          some (⟨.whitespace, c :: s.takeWhile isBlank⟩, s.dropWhile isBlank) := if_pos hc
      rw [lexemes_of_scan hscan, List.takeWhile_cons_of_pos hc, List.dropWhile_cons_of_pos hc]
      rfl
    · rw [List.takeWhile_cons_of_neg hc, List.dropWhile_cons_of_neg hc]
      simp [lineFeeds]

theorem tokensFrom_append_blanks {w : List Char} (hw : ∀ c ∈ w, isBlank c = true) (n : UInt32)
    (s : List Char) :
    tokensFrom n (lexemes (w ++ s)) =
      tokensFrom (n + UInt32.ofNat (lineFeeds w)) (lexemes s) := by
  rw [tokensFrom_dropWhile_isBlank n (w ++ s), tokensFrom_dropWhile_isBlank _ s,
    List.takeWhile_append_of_pos hw, List.dropWhile_append_of_pos hw, lineFeeds_append,
    UInt32.ofNat_add, UInt32.add_assoc]

/-! ## Tokens behind a line break -/

theorem blanks_of_scan (h : scan u = some (x, r)) (hx : x.kind = .whitespace) :
    ∀ c ∈ x.chars, isBlank c = true := by
  have hdescribed := describes_of_scan h (by rw [hx]; decide)
  rw [hx] at hdescribed
  obtain ⟨c, w, hchars, hc, hw⟩ := describes_whitespace_iff.1 hdescribed
  rw [hchars]
  exact List.forall_mem_cons.2 ⟨hc, hw⟩

theorem tokensFrom_lineBreak (n : UInt32) (u v : List Char) :
    tokensFrom n (lexemes (u ++ '\n' :: v)) =
      tokensFrom n (lexemes u) ++
        tokensFrom (n + UInt32.ofNat (lineFeeds u + 1)) (lexemes v) := by
  have hbreak (w : List Char) : lineFeeds (w ++ ['\n']) = lineFeeds w + 1 := by
    simp [lineFeeds]
  fun_induction lexemes u generalizing n with
  | case1 u hu =>
    obtain rfl := eq_nil_of_scan hu
    exact tokensFrom_append_blanks (w := ['\n']) (List.forall_mem_singleton.2 rfl) n v
  | case2 u x r hu _ ih =>
    by_cases hx : x.kind = .whitespace ∧ r = []
    · -- the white space before the break and behind it is one run
      obtain ⟨hblank, rfl⟩ := hx
      have hchars : x.chars = u := by simpa using append_of_scan hu
      have hw : ∀ c ∈ u ++ ['\n'], isBlank c = true := by
        rw [← hchars]
        exact List.forall_mem_append.2 ⟨blanks_of_scan hu hblank, List.forall_mem_singleton.2 rfl⟩
      have htext : u ++ '\n' :: v = u ++ ['\n'] ++ v := by simp
      rw [htext, tokensFrom_append_blanks hw, hbreak, tokensFrom, hblank, lexemes_nil]
      rfl
    · have hscan := scan_append_lineFeed hu (fun hblank hr => hx ⟨hblank, hr⟩) v
      have hlines : n + UInt32.ofNat (lineFeeds u + 1) =
          n + UInt32.ofNat (lineFeeds x.chars) + UInt32.ofNat (lineFeeds r + 1) := by
        rw [← append_of_scan hu, lineFeeds_append, Nat.add_assoc, UInt32.ofNat_add,
          UInt32.add_assoc]
      rw [lexemes_of_scan hscan, tokensFrom, tokensFrom, ih, hlines]
      split
      · rfl
      · rfl

/-- Lexemes that start further down make their tokens further down. -/
theorem tokensFrom_later (n : UInt32) (m : Nat) (xs : List Lexeme) :
    tokensFrom (n + UInt32.ofNat m) xs = (tokensFrom n xs).map (Token.later m) := by
  induction xs generalizing n with
  | nil => rfl
  | cons x xs ih =>
    have hlines : n + UInt32.ofNat m + UInt32.ofNat (lineFeeds x.chars) =
        n + UInt32.ofNat (lineFeeds x.chars) + UInt32.ofNat m := by
      rw [UInt32.add_assoc, UInt32.add_comm (UInt32.ofNat m), UInt32.add_assoc]
    rw [tokensFrom, tokensFrom, hlines, ih]
    split
    · rfl
    · rfl

end Lexical

open Lexical

theorem Lexer.toNat_line_le_of_mem_lex {source : String} {t : Token}
    (h : lineFeeds source.toList < 2 ^ 32 - 1) (ht : t ∈ lex source) :
    t.line.toNat ≤ 1 + lineFeeds source.toList := by
  obtain ⟨i, hi⟩ := List.getElem?_of_mem ht
  obtain ⟨before, x, hplace, -, hline⟩ := exists_tokenAt h hi
  have hle := lineFeeds_le_of_prefix ((List.prefix_append before x.chars).trans hplace.begins)
  omega

/-- **Lexing goes line by line.** The tokens of two texts with a line break between them are those
of the first text and then those of the second, moved down by the line break and the lines of the
first text, and no number of a line wraps around. It does not matter where the first text ends:
in white space, in a comment, in a string or in the middle of a symbol. -/
theorem lex_lineBreak {a b : String}
    (h : lineFeeds a.toList + lineFeeds b.toList < 2 ^ 32 - 2) :
    let lines := 1 + lineFeeds a.toList
    lex (a ++ "\n" ++ b) = lex a ++ (lex b).map (Token.later lines) ∧
      ∀ t ∈ lex b, (t.later lines).line.toNat = t.line.toNat + lines := by
  intro lines
  constructor
  · have htext : (a ++ "\n" ++ b).toList = a.toList ++ '\n' :: b.toList := by simp
    rw [Lexer.lex_eq, Lexer.lex_eq, Lexer.lex_eq, htext, tokensFrom_lineBreak, Nat.add_comm,
      tokensFrom_later]
  · intro t ht
    have hline := Lexer.toNat_line_le_of_mem_lex (by omega) ht
    exact toNat_add_ofNat (by omega)

/-- A string that is not closed on its line, and a quote on the next one. -/
theorem lex_lineBreak_open_string :
    let a := "begin x := \"it"
    let b := "is\" // 1.\n y := 1."
    let lines := 1 + lineFeeds a.toList
    lineFeeds a.toList + lineFeeds b.toList < 2 ^ 32 - 2 ∧
      lex (a ++ "\n" ++ b) = lex a ++ (lex b).map (Token.later lines) ∧
      ∀ t ∈ lex b, (t.later lines).line.toNat = t.line.toNat + lines := by
  intro a b lines
  have h : lineFeeds a.toList + lineFeeds b.toList < 2 ^ 32 - 2 := by decide
  exact ⟨h, lex_lineBreak h⟩

end StatementLang
