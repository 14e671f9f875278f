import StatementLang.Proofs.Lexical.Gaps
import StatementLang.Proofs.Lexical.LineBreaks
import StatementLang.Proofs.Parser.Unplaced
import StatementLang.Report
/-!
# Tokens one to a line

A lexeme is the longest match at its place, and a longest match stays one when the text behind it is
cut away (`FirstLexeme.alone`). So a lexeme that stands alone is scanned as itself, whatever came
behind it where it was found (`scan_alone`), and the texts of the tokens of a source text, written
one to a line, are lexed as these tokens again (`lex_intercalate_lineFeed`).
-/
namespace StatementLang

namespace Lexical

variable {s r : List Char} {x y : Lexeme}

/-! ## A lexeme alone -/

theorem LongestMatch.chars_eq (hx : LongestMatch s x) (hy : LongestMatch s y) :
    x.chars = y.chars := by
  have hle : y.chars.length ≤ x.chars.length := hx.longest _ _ hy.begins hy.described
  have hge : x.chars.length ≤ y.chars.length := hy.longest _ _ hx.begins hx.described
  exact (List.prefix_of_prefix_length_le hx.begins hy.begins hge).eq_of_length
    (Nat.le_antisymm hge hle)

/-- The patterns ask for one lexeme only. -/
theorem FirstLexeme.unique (hx : FirstLexeme s x) (hy : FirstLexeme s y) : x = y := by
  by_cases hm : Matched s
  · have hx := hx.token hm
    have hy := hy.token hm
    have hchars := hx.chars_eq hy
    suffices hkind : x.kind = y.kind by
      obtain ⟨k, w⟩ := x
      obtain ⟨l, v⟩ := y
      exact Lexeme.mk.injEq .. ▸ ⟨hkind, hchars⟩
    -- an identifier that is spelled like a keyword fits, but then the keyword comes first
    rcases hx.priority y.kind (hchars ▸ hy.described) with hk | ⟨hident, -⟩
    · exact hk.symm
    · rcases hy.priority x.kind (hchars ▸ hx.described) with hk | ⟨-, hkeyword⟩
      · exact hk
      · rw [hident] at hkeyword
        exact absurd hkeyword (by decide)
  · rw [hx.error hm, hy.error hm]

theorem Matched.of_prefix {u : List Char} (h : Matched u) (hu : u <+: s) : Matched s := by
  obtain ⟨k, w, hne, hw, hk⟩ := h
  exact ⟨k, w, hne, hw.trans hu, hk⟩

theorem errorText_prefix_self (s : List Char) : errorText s <+: s := by
  cases s with
  | nil => exact List.prefix_rfl
  | cons c s =>
    rw [errorText]
    split
    · exact (List.prefix_cons_inj c).2 (List.takeWhile_prefix _)
    · exact (List.prefix_cons_inj c).2 List.nil_prefix

theorem errorText_errorText (s : List Char) : errorText (errorText s) = errorText s := by
  cases s with
  | nil => rfl
  | cons c s =>
    by_cases hc : c = '"'
    · have hrun : (s.takeWhile isInLine).takeWhile isInLine = s.takeWhile isInLine :=
        List.takeWhile_eq_self_iff.2 fun _ => List.mem_takeWhile_imp
      rw [errorText, if_pos hc, errorText, if_pos hc, hrun]
    · rw [errorText, if_neg hc, errorText, if_neg hc]

/-- What the patterns ask for they ask for again where nothing comes behind it. -/
theorem FirstLexeme.alone (h : FirstLexeme s x) : FirstLexeme x.chars x := by
  by_cases hm : Matched s
  · have hx := h.token hm
    refine .of_match h.ne_nil ⟨List.prefix_rfl, hx.described, fun k w hw hk => ?_, hx.priority⟩
    exact hx.longest k w (hw.trans hx.begins) hk
  · obtain rfl := h.error hm
    refine ⟨h.ne_nil, fun halone => ?_, fun _ => ?_⟩
    · exact absurd (halone.of_prefix (errorText_prefix_self s)) hm
    · exact congrArg (Lexeme.mk .error) (errorText_errorText s).symm

/-- A lexeme that stands alone is scanned as itself. -/
theorem scan_alone (h : scan s = some (x, r)) : scan x.chars = some (x, []) := by
  have hx := firstLexeme_of_scan h
  cases halone : scan x.chars with
  | none => exact absurd (eq_nil_of_scan halone) hx.ne_nil
  | some p =>
    obtain ⟨y, v⟩ := p
    obtain rfl : y = x := (firstLexeme_of_scan halone).unique hx.alone
    have hv : v = [] := by simpa using append_of_scan halone
    rw [hv]

end Lexical

open Lexical

/-! ## A token on each line -/

/-- The token, but on line `n`. -/
def Token.onLine (n : UInt32) (t : Token) : Token := { t with line := n }

/-- The text of the token is on one line and is lexed as the token, whatever the line. -/
structure Token.Standalone (t : Token) : Prop where
  one_line : lineFeeds t.text.toList = 0
  lexed : ∀ n, tokensFrom n (lexemes t.text.toList) = [t.onLine n]

theorem standalone_of_mem_lex {source : String} {t : Token} (h : t ∈ lex source) :
    t.Standalone := by
  obtain ⟨s, x, r, m, hscan, htoken, rfl⟩ := Lexer.exists_scan_of_mem_tokens h
  have htext : (x.toToken m).text.toList = x.chars := by
    rw [text_toToken_of_scan hscan htoken, String.toList_ofList]
  have hline : lineFeeds x.chars = 0 :=
    List.count_eq_zero.2 (lineFeed_not_mem_of_scan hscan (ne_whitespace_of_token htoken))
  refine ⟨htext ▸ hline, fun n => ?_⟩
  rw [htext, lexemes_of_scan (scan_alone hscan), lexemes_nil, tokensFrom, htoken]
  rfl

/-- Texts one to a line are lexed one after the other, each on its line. -/
theorem tokensFrom_intercalate_lineFeed {ts : List Token} (h : ∀ t ∈ ts, t.Standalone)
    (n : UInt32) :
    tokensFrom n (lexemes (['\n'].intercalate (ts.map fun t => t.text.toList))) =
      ts.mapIdx fun i t => t.onLine (n + UInt32.ofNat i) := by
  induction ts generalizing n with
  | nil => exact congrArg (tokensFrom n) lexemes_nil
  | cons t ts ih =>
    obtain ⟨ht, hts⟩ := List.forall_mem_cons.1 h
    cases ts with
    | nil => simpa using ht.lexed n
    | cons u ts =>
      have hlines (i : Nat) :
          n + UInt32.ofNat (0 + 1) + UInt32.ofNat i = n + UInt32.ofNat (i + 1) := by
        rw [UInt32.add_assoc, ← UInt32.ofNat_add, Nat.zero_add, Nat.add_comm]
      have htexts : ['\n'].intercalate ((t :: u :: ts).map fun t => t.text.toList) =
          t.text.toList ++ '\n' :: ['\n'].intercalate ((u :: ts).map fun t => t.text.toList) := by
        simp [List.intercalate_cons_cons]
      have hfirst : n + UInt32.ofNat 0 = n := UInt32.add_zero n
      rw [htexts, tokensFrom_lineBreak, ht.lexed, ht.one_line, ih hts,
        List.mapIdx_cons (l := u :: ts), hfirst]
      simp only [hlines]
      rfl

/-- The tokens of a source text, one to a line. -/
theorem lex_intercalate_lineFeed (source : String) :
    lex ("\n".intercalate ((lex source).map Token.text)) =
      (lex source).mapIdx fun i t => t.onLine (1 + UInt32.ofNat i) := by
  rw [Lexer.lex_eq ("\n".intercalate _), String.toList_intercalate, List.map_map]
  exact tokensFrom_intercalate_lineFeed (fun t ht => standalone_of_mem_lex ht) 1

/-- **Tokens are lexed again one to a line.** Write the texts of the tokens of a source text one to
a line, those of errors among them. What is lexed then are tokens of the same kinds with the same
lexemes, each on the line with its number, and it is parsed as the source text is: up to lines, the
events are the same and so is the error, if there is one. -/
theorem oneToALine_lexed_again {source : String} (h : (lex source).length < 2 ^ 32 - 1) :
    let again := "\n".intercalate ((lex source).map Token.text)
    (lex again).length = (lex source).length ∧
      (∀ i t, (lex source)[i]? = some t → ∃ t', (lex again)[i]? = some t' ∧ t'.kind = t.kind ∧
        t'.lexeme = t.lexeme ∧ t'.line.toNat = i + 1) ∧
      (parseText again).events.map Event.unplaced = (parseText source).events.map Event.unplaced ∧
      (parseText again).error.map SyntaxError.unplaced =
        (parseText source).error.map SyntaxError.unplaced := by
  intro again
  have hlex : lex again = (lex source).mapIdx fun i t => t.onLine (1 + UInt32.ofNat i) :=
    lex_intercalate_lineFeed source
  refine ⟨by rw [hlex, List.length_mapIdx], fun i t ht => ?_, ?_⟩
  · have hi : i < (lex source).length := (List.getElem?_eq_some_iff.1 ht).1
    have hagain : (lex again)[i]? = some (t.onLine (1 + UInt32.ofNat i)) := by
      rw [hlex, List.getElem?_mapIdx, ht]
      rfl
    refine ⟨_, hagain, rfl, rfl, ?_⟩
    have hline : (1 + UInt32.ofNat i).toNat = 1 + i := toNat_add_ofNat (by
      show 1 + i < 2 ^ 32
      omega)
    rw [Nat.add_comm]
    exact hline
  · refine Parser.parse_unplaced (Lexer.handsOut _) (Lexer.handsOut _) ?_
    show (lex again).map Token.unplaced = (lex source).map Token.unplaced
    refine List.ext_getElem? fun i => ?_
    rw [List.getElem?_map, List.getElem?_map, hlex, List.getElem?_mapIdx]
    cases (lex source)[i]? <;> rfl

/-- A colon apart from its equals sign, points without digits behind them, and a string that is not
closed. -/
theorem oneToALine_lexed_again_errors :
    let source := "begin x: = 1./ y! // z\n \"it; end"
    let again := "\n".intercalate ((lex source).map Token.text)
    (lex source).length < 2 ^ 32 - 1 ∧ (lex again).length = (lex source).length ∧
      (∀ i t, (lex source)[i]? = some t → ∃ t', (lex again)[i]? = some t' ∧ t'.kind = t.kind ∧
        t'.lexeme = t.lexeme ∧ t'.line.toNat = i + 1) ∧
      (parseText again).events.map Event.unplaced = (parseText source).events.map Event.unplaced ∧
      (parseText again).error.map SyntaxError.unplaced =
        (parseText source).error.map SyntaxError.unplaced := by
  intro source again
  have h : (lex source).length < 2 ^ 32 - 1 :=
    Nat.lt_of_le_of_lt (Lexer.length_lex_le source) (by decide)
  exact ⟨h, oneToALine_lexed_again h⟩

end StatementLang
