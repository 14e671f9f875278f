import StatementLang.Lexical.Lexer
/-!
# Tokens from lexemes

The tokens of a text are its lexemes without white space and comments, each on the line that the
lexemes before it have come to (`Lexer.tokens_eq`). A lexeme that is not white space stays on one
line (`lineFeed_not_mem_of_scan`).
-/
namespace StatementLang

namespace Lexical

/-! ## Lexeme by lexeme -/

theorem lexemes_of_scan {s r : List Char} {x : Lexeme} (h : scan s = some (x, r)) :
    lexemes s = x :: lexemes r := by
  rw [lexemes]; split <;> simp_all

theorem lexemes_of_scan_eq_none {s : List Char} (h : scan s = none) : lexemes s = [] := by
  rw [lexemes]; split <;> simp_all

theorem lexemes_nil : lexemes [] = [] := lexemes_of_scan_eq_none rfl

theorem eq_nil_of_scan {s : List Char} (h : scan s = none) : s = [] := by
  cases s with
  | nil => rfl
  | cons c s =>
    rw [scan] at h
    repeat' split at h
    all_goals cases h

theorem lineFeeds_append (s t : List Char) : lineFeeds (s ++ t) = lineFeeds s + lineFeeds t :=
  List.count_append

theorem exists_scan_of_mem_lexemes {s : List Char} {x : Lexeme} (h : x ∈ lexemes s) :
    ∃ u r, scan u = some (x, r) := by
  fun_induction lexemes s with
  | case1 s hs => cases h
  | case2 s y r hy _ ih =>
    rcases List.mem_cons.1 h with rfl | h
    · exact ⟨s, r, hy⟩
    · exact ih h

theorem length_lexemes_le (s : List Char) : (lexemes s).length ≤ s.length := by
  fun_induction lexemes s with
  | case1 s hs => exact Nat.zero_le _
  | case2 s x r hs _ ih =>
    have hlt := length_lt_of_scan hs
    rw [List.length_cons]
    omega

/-- The tokens of some lexemes, of which the first starts on line `n`. -/
def tokensFrom : UInt32 → List Lexeme → List Token
  | _, [] => []
  | n, x :: xs =>
    let rest := tokensFrom (n + UInt32.ofNat (lineFeeds x.chars)) xs
    if x.kind.isTrivia then rest else x.toToken n :: rest

theorem length_tokensFrom_le (n : UInt32) (xs : List Lexeme) :
    (tokensFrom n xs).length ≤ xs.length := by
  induction xs generalizing n with
  | nil => exact Nat.zero_le _
  | cons x xs ih =>
    have hle := ih (n + UInt32.ofNat (lineFeeds x.chars))
    rw [tokensFrom, List.length_cons]
    split
    · omega
    · exact Nat.succ_le_succ hle

theorem exists_lexeme_of_mem_tokensFrom {n : UInt32} {xs : List Lexeme} {t : Token}
    (h : t ∈ tokensFrom n xs) : ∃ x ∈ xs, x.kind.isTrivia = false ∧ ∃ m, t = x.toToken m := by
  induction xs generalizing n with
  | nil => cases h
  | cons x xs ih =>
    rw [tokensFrom] at h
    split at h
    · obtain ⟨y, hy, hyx⟩ := ih h
      exact ⟨y, List.mem_cons_of_mem x hy, hyx⟩
    · rename_i hx
      rcases List.mem_cons.1 h with rfl | h
      · exact ⟨x, List.mem_cons_self, Bool.eq_false_iff.2 hx, n, rfl⟩
      · obtain ⟨y, hy, hyx⟩ := ih h
        exact ⟨y, List.mem_cons_of_mem x hy, hyx⟩

end Lexical

open Lexical

namespace Lexer

theorem lexeme?_of_scan {s r : List Char} {x : Lexeme} (h : scan s = some (x, r)) (n : UInt32) :
    (⟨s, n⟩ : Lexer).lexeme? = some (x, ⟨r, n + UInt32.ofNat (lineFeeds x.chars)⟩) := by
  rw [lexeme?, h]; rfl

theorem lexeme?_of_scan_eq_none {s : List Char} (h : scan s = none) (n : UInt32) :
    (⟨s, n⟩ : Lexer).lexeme? = none := by rw [lexeme?, h]; rfl

/-- A lexer and the one behind its next lexeme, if that is no token, have the same tokens. -/
theorem tokens_of_trivia {l l' : Lexer} {x : Lexeme} (h : l.lexeme? = some (x, l'))
    (hx : x.kind.isTrivia) : l.tokens = l'.tokens := by
  have hnext : l.next = l'.next := next_of_trivia h hx
  cases hl : l'.next with
  | mk t last =>
    rw [hl] at hnext
    cases t with
    | none => rw [tokens_of_end hnext, tokens_of_end hl]
    | some t => rw [tokens_of_token hnext, tokens_of_token hl]

theorem tokens_eq (s : List Char) (n : UInt32) :
    (⟨s, n⟩ : Lexer).tokens.1 = tokensFrom n (lexemes s) := by
  fun_induction lexemes s generalizing n with
  | case1 s hs =>
    rw [tokens_of_end (next_of_end (lexeme?_of_scan_eq_none hs n)), tokensFrom]
  | case2 s x r hs _ ih =>
    have hx := lexeme?_of_scan hs n
    rw [tokensFrom]
    split
    · rename_i htrivia
      rw [tokens_of_trivia hx htrivia, ih]
    · rename_i htoken
      rw [tokens_of_token (next_of_token hx (Bool.eq_false_iff.2 htoken)), ih]

/-- A lexer that has handed out all its tokens stands on the last line of its text. -/
theorem tokens_end (s : List Char) (n : UInt32) :
    (⟨s, n⟩ : Lexer).tokens.2 = ⟨[], n + UInt32.ofNat (lineFeeds s)⟩ := by
  fun_induction lexemes s generalizing n with
  | case1 s hs =>
    rw [tokens_of_end (next_of_end (lexeme?_of_scan_eq_none hs n)), eq_nil_of_scan hs]
    simp [lineFeeds]
  | case2 s x r hs _ ih =>
    have hx := lexeme?_of_scan hs n
    have hlines : n + UInt32.ofNat (lineFeeds s) =
        n + UInt32.ofNat (lineFeeds x.chars) + UInt32.ofNat (lineFeeds r) := by
      rw [← append_of_scan hs, lineFeeds_append, UInt32.ofNat_add, UInt32.add_assoc]
    rw [hlines, ← ih]
    cases htrivia : x.kind.isTrivia with
    | true => rw [tokens_of_trivia hx htrivia]
    | false => rw [tokens_of_token (next_of_token hx htrivia)]

theorem lex_eq (source : String) : lex source = tokensFrom 1 (lexemes source.toList) :=
  tokens_eq source.toList 1

/-- There are no more tokens than characters. -/
theorem length_lex_le (source : String) : (lex source).length ≤ source.toList.length := by
  rw [lex_eq]
  exact Nat.le_trans (length_tokensFrom_le _ _) (length_lexemes_le _)

/-- Every token is read from a lexeme that was scanned somewhere. -/
theorem exists_scan_of_mem_tokens {l : Lexer} {t : Token} (h : t ∈ l.tokens.1) :
    ∃ s x r n, scan s = some (x, r) ∧ x.kind.isTrivia = false ∧ t = x.toToken n := by
  rw [show l.tokens.1 = _ from tokens_eq l.rest l.line] at h
  obtain ⟨x, hx, htoken, n, rfl⟩ := exists_lexeme_of_mem_tokensFrom h
  obtain ⟨s, r, hscan⟩ := exists_scan_of_mem_lexemes hx
  exact ⟨s, x, r, n, hscan, htoken, rfl⟩

end Lexer

/-! ## Lexemes and lines -/

namespace Lexical

theorem lineFeed_not_mem_takeWhile {p : Char → Bool} (hp : p '\n' = false) (s : List Char) :
    '\n' ∉ s.takeWhile p := by
  intro h
  have hall := List.all_eq_true.1 List.all_takeWhile _ h
  rw [hp] at hall
  cases hall

theorem ne_lineFeed_of {p : Char → Bool} (hp : p '\n' = false) {c : Char} (hc : p c = true) :
    '\n' ≠ c := by
  rintro rfl
  rw [hp] at hc
  cases hc

theorem lineFeed_not_mem_scanNumber {c : Char} (hc : isDigit c = true) (s : List Char) :
    '\n' ∉ (scanNumber c s).1.chars := by
  have hp : isDigit '\n' = false := by decide
  have hs := lineFeed_not_mem_takeWhile hp
  unfold scanNumber
  split
  · split
    · rename_i d r _ hd
      simp [hs, ne_lineFeed_of hp hc, ne_lineFeed_of hp hd]
    · simp [hs, ne_lineFeed_of hp hc]
  · simp [hs, ne_lineFeed_of hp hc]

theorem lineFeed_not_mem_scanQuoted (s : List Char) : '\n' ∉ (scanQuoted s).1.chars := by
  have hs := lineFeed_not_mem_takeWhile (p := isInQuotes) (by decide) s
  unfold scanQuoted
  split <;> simp [hs]

theorem lineFeed_not_mem_scanSymbol {c : Char} (hc : isBlank c = false) (s : List Char) :
    '\n' ∉ (scanSymbol c s).1.chars := by
  have hne : '\n' ≠ c := by rintro rfl; cases hc
  have hs := lineFeed_not_mem_takeWhile (p := isInLine) (by decide) s
  unfold scanSymbol
  split
  · simp [hs, hne]
  · split
    · rename_i k hk
      have key : ∀ k ∈ symbols, '\n' ∉ k.name.toList := by decide
      exact key k (mem_of_symbol? hk)
    · simpa using hne

theorem ne_whitespace_of_token {k : TokenKind} (h : k.isTrivia = false) : k ≠ .whitespace := by
  rintro rfl
  cases h

/-- Only white space has line feeds in it. -/
theorem lineFeed_not_mem_of_scan {s r : List Char} {x : Lexeme} (h : scan s = some (x, r))
    (hx : x.kind ≠ .whitespace) : '\n' ∉ x.chars := by
  cases s with
  | nil => cases h
  | cons c s =>
    simp only [scan] at h
    split at h
    · cases h; exact absurd rfl hx
    rename_i hblank
    split at h
    · rename_i hc
      have hs := lineFeed_not_mem_takeWhile (p := isWordChar) (by decide) s
      cases h
      simp [hs, ne_lineFeed_of (p := isLetter) (by decide) hc]
    split at h
    · rename_i hc
      have := lineFeed_not_mem_scanNumber hc s; rw [Option.some.inj h] at this; exact this
    split at h
    · have := lineFeed_not_mem_scanQuoted s; rw [Option.some.inj h] at this; exact this
    · have := lineFeed_not_mem_scanSymbol (Bool.eq_false_iff.2 hblank) s
      rw [Option.some.inj h] at this; exact this

theorem lineFeed_not_mem_name (k : TokenKind) : '\n' ∉ k.name.toList := by
  have key : ∀ k ∈ TokenKind.all, '\n' ∉ k.name.toList := by decide
  exact key k (TokenKind.mem_all k)

theorem lineFeed_not_mem_display_toToken {x : Lexeme} (h : '\n' ∉ x.chars) (n : UInt32) :
    '\n' ∉ (x.toToken n).display.toList := by
  have hname := lineFeed_not_mem_name x.kind
  unfold Lexeme.toToken Token.display
  split <;> rename_i s hs
  · simp only [Option.ite_none_right_eq_some, Option.some.injEq] at hs
    obtain ⟨-, rfl⟩ := hs
    simp [h, hname]
  · exact hname

end Lexical

/-- A token of a source text is shown on one line. -/
theorem Lexer.lineFeed_not_mem_display {l : Lexer} {t : Token} (h : t ∈ l.tokens.1) :
    '\n' ∉ t.display.toList := by
  obtain ⟨s, x, r, n, hscan, htoken, rfl⟩ := exists_scan_of_mem_tokens h
  have hx : '\n' ∉ x.chars := lineFeed_not_mem_of_scan hscan (ne_whitespace_of_token htoken)
  exact lineFeed_not_mem_display_toToken hx n

end StatementLang
