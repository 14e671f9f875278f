import Mathlib.Algebra.Group.Nat.Defs
import StatementLang.Proofs.Lexical.LongestMatch
/-!
# Where tokens stand

A lexer counts the line feeds of what it passes (`Passes.line_eq`), and 32 bits are enough for that
if the source text has fewer than 2 ^ 32 - 1 of them (`toNat_line_of_passes`). `TokenAt` gives a
token its place: the lexeme it is read from and the text before that. Every token of a text has such
a place, and its line is the line of the place (`exists_tokenAt`).
-/
namespace StatementLang

namespace Lexical

theorem lineFeeds_le_of_prefix {u s : List Char} (h : u <+: s) : lineFeeds u ≤ lineFeeds s :=
  h.sublist.count_le _

/-- Line numbers are held in 32 bits, and count on as long as these are enough. -/
theorem toNat_add_ofNat {n : UInt32} {k : Nat} (h : n.toNat + k < 2 ^ 32) :
    (n + UInt32.ofNat k).toNat = n.toNat + k := by
  rw [UInt32.toNat_add, UInt32.toNat_ofNat']
  show (n.toNat + k % 2 ^ 32) % 2 ^ 32 = n.toNat + k
  omega

/-- The number of tokens among some lexemes. -/
def tokenCount (xs : List Lexeme) : Nat := xs.countP fun x => !x.kind.isTrivia

theorem tokenCount_cons (x : Lexeme) (xs : List Lexeme) :
    tokenCount (x :: xs) = tokenCount xs + if x.kind.isTrivia then 0 else 1 := by
  cases h : x.kind.isTrivia <;> simp [tokenCount, h]

/-- A token comes from the lexeme behind as many tokens, on the line that the lexemes before it have
come to. -/
theorem exists_lexeme_of_getElem? {n : UInt32} {xs : List Lexeme} {i : Nat} {t : Token}
    (h : (tokensFrom n xs)[i]? = some t) :
    ∃ past x rest, xs = past ++ x :: rest ∧ x.kind.isTrivia = false ∧ tokenCount past = i ∧
      t = x.toToken (n + UInt32.ofNat (lineFeeds (past.flatMap Lexeme.chars))) := by
  induction xs generalizing n i with
  | nil => simp [tokensFrom] at h
  | cons x xs ih =>
    have hline (past : List Lexeme) : n + UInt32.ofNat (lineFeeds x.chars) +
        UInt32.ofNat (lineFeeds (past.flatMap Lexeme.chars)) =
        n + UInt32.ofNat (lineFeeds ((x :: past).flatMap Lexeme.chars)) := by
      rw [List.flatMap_cons, lineFeeds_append, UInt32.ofNat_add, UInt32.add_assoc]
    rw [tokensFrom] at h
    by_cases hx : x.kind.isTrivia = true
    · rw [if_pos hx] at h
      obtain ⟨past, y, rest, rfl, hy, hcount, rfl⟩ := ih h
      refine ⟨x :: past, y, rest, rfl, hy, ?_, by rw [hline]⟩
      simp [tokenCount_cons, hx, hcount]
    · rw [if_neg hx] at h
      cases i with
      | zero =>
        obtain rfl : x.toToken n = t := by simpa using h
        exact ⟨[], x, xs, rfl, Bool.eq_false_iff.2 hx, rfl, by simp [lineFeeds]⟩
      | succ i =>
        obtain ⟨past, y, rest, rfl, hy, hcount, rfl⟩ := ih h
        refine ⟨x :: past, y, rest, rfl, hy, ?_, by rw [hline]⟩
        simp [tokenCount_cons, hx, hcount]

end Lexical

open Lexical

namespace Lexer

variable {l l' : Lexer} {x : Lexeme} {xs ys : List Lexeme}

/-! ## Passing lexemes -/

theorem scan_of_lexeme? (h : l.lexeme? = some (x, l')) :
    scan l.rest = some (x, l'.rest) ∧ l'.line = l.line + UInt32.ofNat (lineFeeds x.chars) := by
  obtain ⟨⟨y, r⟩, hscan, he⟩ := Option.map_eq_some_iff.1 h
  cases he
  exact ⟨hscan, rfl⟩

theorem Passes.append_rest (h : Passes l xs l') : xs.flatMap Lexeme.chars ++ l'.rest = l.rest := by
  induction h with
  | done => rfl
  | lexeme next _ ih =>
    rw [List.flatMap_cons, List.append_assoc, ih]
    exact append_of_scan (scan_of_lexeme? next).1

theorem Passes.line_eq (h : Passes l xs l') :
    l'.line = l.line + UInt32.ofNat (lineFeeds (xs.flatMap Lexeme.chars)) := by
  induction h with
  | done => simp [lineFeeds]
  | lexeme next _ ih =>
    rw [ih, (scan_of_lexeme? next).2, List.flatMap_cons, lineFeeds_append, UInt32.ofNat_add,
      UInt32.add_assoc]

/-- On the way past some lexemes a lexer comes past the first of them. -/
theorem Passes.exists_between (h : Passes l (xs ++ ys) l') :
    ∃ m, Passes l xs m ∧ Passes m ys l' := by
  induction xs generalizing l with
  | nil => exact ⟨l, .done, h⟩
  | cons x xs ih =>
    cases h with
    | lexeme next rest =>
      obtain ⟨m, hm, hys⟩ := ih rest
      exact ⟨m, .lexeme next hm, hys⟩

/-- A lexer comes to every lexeme of its text. -/
theorem exists_passes_of_lexemes {s : List Char} {rest : List Lexeme}
    (h : lexemes s = xs ++ x :: rest) (n : UInt32) :
    ∃ l l', Passes ⟨s, n⟩ xs l ∧ l.lexeme? = some (x, l') := by
  obtain ⟨last, hpasses, -⟩ := exists_passes s n
  rw [h] at hpasses
  obtain ⟨l, hl, hrest⟩ := hpasses.exists_between
  cases hrest with
  | lexeme next _ => exact ⟨l, _, hl, next⟩

/-! ## Lines -/

variable {source : String}

theorem toNat_line_of_passes (h : lineFeeds source.toList < 2 ^ 32 - 1)
    (hl : Passes (ofSource source) xs l) :
    l.line.toNat = 1 + lineFeeds (xs.flatMap Lexeme.chars) := by
  have hle : lineFeeds (xs.flatMap Lexeme.chars) ≤ lineFeeds source.toList :=
    lineFeeds_le_of_prefix ⟨l.rest, hl.append_rest⟩
  rw [hl.line_eq]
  refine toNat_add_ofNat ?_
  show 1 + _ < 2 ^ 32
  omega

/-- No lexeme takes the count of lines out of 32 bits. -/
theorem toNat_line_of_lexeme? (h : lineFeeds source.toList < 2 ^ 32 - 1)
    (hl : Passes (ofSource source) xs l) (hx : l.lexeme? = some (x, l')) :
    l.line.toNat + lineFeeds x.chars < 2 ^ 32 ∧
      l'.line.toNat = l.line.toNat + lineFeeds x.chars := by
  have hrest : x.chars ++ l'.rest = l.rest := append_of_scan (scan_of_lexeme? hx).1
  have hle : lineFeeds (xs.flatMap Lexeme.chars ++ x.chars) ≤ lineFeeds source.toList := by
    refine lineFeeds_le_of_prefix ⟨l'.rest, ?_⟩
    rw [List.append_assoc, hrest]
    exact hl.append_rest
  rw [lineFeeds_append] at hle
  have hline := toNat_line_of_passes h hl
  have hsum : l.line.toNat + lineFeeds x.chars < 2 ^ 32 := by omega
  refine ⟨hsum, ?_⟩
  rw [(scan_of_lexeme? hx).2]
  exact toNat_add_ofNat hsum

/-- The line on which a text ends, unless there are too many lines to count. -/
theorem line_tokens_ofSource (h : lineFeeds source.toList < 2 ^ 32 - 1) :
    (ofSource source).tokens.2.line.toNat = 1 + lineFeeds source.toList := by
  have hend : (ofSource source).tokens.2.line = 1 + UInt32.ofNat (lineFeeds source.toList) :=
    congrArg Lexer.line (tokens_end source.toList 1)
  rw [hend]
  refine toNat_add_ofNat ?_
  show 1 + _ < 2 ^ 32
  omega

/-! ## Places of tokens -/

/-- The lexeme `x`, behind the text `before`, is the place of token number `i`: the lexer comes to
it when it has passed `before` and `i` tokens in it. -/
structure TokenAt (source : String) (i : Nat) (before : List Char) (x : Lexeme) : Prop where
  token : x.kind.isTrivia = false
  passed : ∃ past l l', Passes (ofSource source) past l ∧ l.lexeme? = some (x, l') ∧
    past.flatMap Lexeme.chars = before ∧ tokenCount past = i

theorem TokenAt.begins {i : Nat} {before : List Char} (h : TokenAt source i before x) :
    before ++ x.chars <+: source.toList := by
  obtain ⟨past, l, l', hpast, hx, rfl, -⟩ := h.passed
  refine ⟨l'.rest, ?_⟩
  rw [List.append_assoc, append_of_scan (scan_of_lexeme? hx).1]
  exact hpast.append_rest

/-- Every token has a place, and its line is one more than the line feeds before that. -/
theorem exists_tokenAt (h : lineFeeds source.toList < 2 ^ 32 - 1) {i : Nat} {t : Token}
    (ht : (lex source)[i]? = some t) :
    ∃ before x, TokenAt source i before x ∧ t = x.toToken t.line ∧
      t.line.toNat = 1 + lineFeeds before := by
  rw [lex_eq] at ht
  obtain ⟨past, x, rest, hlexemes, hx, hcount, rfl⟩ := exists_lexeme_of_getElem? ht
  obtain ⟨l, l', hpast, hnext⟩ := exists_passes_of_lexemes hlexemes 1
  refine ⟨_, x, ⟨hx, past, l, l', hpast, hnext, rfl, hcount⟩, rfl, ?_⟩
  have hline : l.line = 1 + UInt32.ofNat (lineFeeds (past.flatMap Lexeme.chars)) := hpast.line_eq
  exact hline ▸ toNat_line_of_passes h hpast

end Lexer

/-! ## The end of a text -/

/-- No lexeme is an end of file. -/
theorem Lexical.kind_ne_eof_of_scan {s r : List Char} {x : Lexeme} (h : scan s = some (x, r)) :
    x.kind ≠ .eof := by
  intro heof
  have hdescribed := describes_of_scan h (by rw [heof]; decide)
  rw [heof] at hdescribed
  obtain ⟨p, hp, -⟩ := hdescribed
  cases hp

theorem kind_ne_eof_of_mem_lex {source : String} {t : Token} (h : t ∈ lex source) :
    t.kind ≠ .eof := by
  obtain ⟨s, x, r, n, hscan, -, rfl⟩ := Lexer.exists_scan_of_mem_tokens h
  exact kind_ne_eof_of_scan hscan

end StatementLang
