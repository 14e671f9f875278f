import Mathlib.Data.List.Basic
import Mathlib.Data.List.TakeWhile
import StatementLang.Config
/-!
# Numbers in configuration files

Nothing but a number looks like decimal digits: a date needs a dash behind its year, and a time a
colon behind its hour. So every number is read back from its digits (`scalar?_toDigits`), and a
configuration file can set every indentation that 64 bits hold (`ofText?_indentationFile`).
-/
namespace StatementLang

namespace Toml

variable {c d : Char} {ds r : List Char}

theorem beq_eq_false_of_isDigit (hd : d.isDigit) (hc : c.isDigit = false) : (d == c) = false := by
  refine beq_eq_false_iff_ne.2 fun h => ?_
  rw [h, hc] at hd
  cases hd

theorem isSpace_eq_false_of_isDigit (hd : d.isDigit) : isSpace d = false := by
  simp [isSpace, beq_eq_false_of_isDigit hd]

/-! ## Neither dates nor times -/

theorem expectChar_eq_none (h : ∀ d ∈ ds, d.isDigit) (hc : c.isDigit = false) :
    expectChar c ds = none := by
  cases ds with
  | nil => rfl
  | cons d ds =>
    have hne := beq_eq_false_iff_ne.1 (beq_eq_false_of_isDigit (h d List.mem_cons_self) hc)
    exact if_neg (Ne.symm hne)

theorem isDigit_of_readTwoDigits (h : ∀ d ∈ ds, d.isDigit) {n : Nat}
    (hr : readTwoDigits ds = some (n, r)) : ∀ d ∈ r, d.isDigit := by
  unfold readTwoDigits at hr
  split at hr
  · split at hr
    · cases hr
      exact fun d hd => h d (List.mem_cons_of_mem _ (List.mem_cons_of_mem _ hd))
    · cases hr
  · cases hr

theorem readDate_eq_none (h : ∀ d ∈ ds, d.isDigit) : readDate ds = none := by
  unfold readDate
  cases hcentury : readTwoDigits ds with
  | none => rfl
  | some p =>
    have hp := isDigit_of_readTwoDigits h hcentury
    cases hyears : readTwoDigits p.2 with
    | none => simp [hyears]
    | some q =>
      have hq := isDigit_of_readTwoDigits hp hyears
      simp [hyears, expectChar_eq_none hq]

theorem readTime_eq_none (h : ∀ d ∈ ds, d.isDigit) : readTime ds = none := by
  unfold readTime readTwoDigitsTo
  cases hhour : readTwoDigits ds with
  | none => rfl
  | some p =>
    have hp := isDigit_of_readTwoDigits h hhour
    by_cases hle : p.1 ≤ 23
    · simp [hle, expectChar_eq_none hp]
    · simp [hle]

theorem isDateTime_eq_false (h : ∀ d ∈ ds, d.isDigit) : isDateTime ds = false := by
  simp only [isDateTime, readDate_eq_none h, readTime_eq_none h]

/-! ## Numbers -/

theorem splitSign_of_digits (h : ∀ d ∈ ds, d.isDigit) : splitSign ds = (false, ds) := by
  unfold splitSign
  split
  · exact absurd (h '-' List.mem_cons_self) (by decide)
  · exact absurd (h '+' List.mem_cons_self) (by decide)
  · rfl

theorem natOfDigits_of_digits (h : ∀ d ∈ ds, d.isDigit) :
    natOfDigits 10 ds = Nat.ofDigitChars 10 ds 0 := by
  refine List.foldl_ext _ _ 0 fun n d hd => ?_
  rw [hexValue?, if_pos (h d hd)]
  rfl

theorem decimal?_of_digits (hne : ds ≠ []) (h : ∀ d ∈ ds, d.isDigit) :
    decimal? ds = some (Nat.ofDigitChars 10 ds 0 : Int) := by
  have hdigits : (ds.isEmpty || !ds.all Char.isDigit) = false := by simpa [hne] using h
  rw [decimal?, splitSign_of_digits h]
  simp only [hdigits, natOfDigits_of_digits h]
  rfl

theorem hasDecimalForm_of_digits (h : ∀ d ∈ ds, d.isDigit)
    (hzero : ds = ['0'] ∨ ∃ d, ds.head? = some d ∧ d ≠ '0') : hasDecimalForm ds = true := by
  have hdrop : ds.dropWhile Char.isDigit = [] := List.dropWhile_eq_nil_iff.2 h
  simp only [hasDecimalForm, splitSign_of_digits h, hdrop]
  rcases hzero with rfl | ⟨d, hd, hne⟩
  · rfl
  · simp [hd, hne]

/-- Decimal digits without a leading zero are an integer. -/
theorem integer?_of_digits (hne : ds ≠ []) (h : ∀ d ∈ ds, d.isDigit)
    (hzero : ds = ['0'] ∨ ∃ d, ds.head? = some d ∧ d ≠ '0') :
    integer? ds = some (some (Nat.ofDigitChars 10 ds 0 : Int)) := by
  have hfilter : ds.filter (· != '_') = ds := by
    refine List.filter_eq_self.2 fun d hd => ?_
    rw [bne, beq_eq_false_of_isDigit (h d hd) (by decide)]
    rfl
  unfold integer?
  split
  · exact absurd (h 'x' (by simp)) (by decide)
  · exact absurd (h 'o' (by simp)) (by decide)
  · exact absurd (h 'b' (by simp)) (by decide)
  · rw [if_pos (hasDecimalForm_of_digits h hzero), hfilter, decimal?_of_digits hne h]

theorem isDigit_of_mem_toDigits {n : Nat} : ∀ d ∈ Nat.toDigits 10 n, d.isDigit := fun _ hd =>
  Nat.isDigit_of_mem_toDigits (by decide) (by decide) hd

theorem exists_toDigits_eq_cons (n : Nat) : ∃ d ds, Nat.toDigits 10 n = d :: ds ∧ d.isDigit := by
  obtain ⟨d, ds, hds⟩ := List.exists_cons_of_ne_nil (Nat.toDigits_ne_nil (n := n) (b := 10))
  exact ⟨d, ds, hds, isDigit_of_mem_toDigits d (hds ▸ List.mem_cons_self)⟩

/-- A number other than zero does not start with a zero. -/
theorem head?_toDigits {n : Nat} (hn : 0 < n) :
    ∃ d, (Nat.toDigits 10 n).head? = some d ∧ d ≠ '0' := by
  induction n using Nat.base_induction 10 (by decide) with
  | single n hlt =>
    rw [Nat.toDigits_of_lt_base hlt]
    exact ⟨n.digitChar, rfl, fun h => Nat.ne_of_gt hn (Nat.digitChar_eq_zero.1 h)⟩
  | digit n k hk hpos ih =>
    obtain ⟨d, hd, hne⟩ := ih hpos
    rw [← Nat.toDigits_append_toDigits (by decide) hpos hk, List.head?_append, hd]
    exact ⟨d, rfl, hne⟩

/-- The digits of a number are read as this number. -/
theorem scalar?_toDigits (n : Nat) : scalar? (Nat.toDigits 10 n) = some (.integer (some n)) := by
  have hinteger : integer? (Nat.toDigits 10 n) = some (some (n : Int)) := by
    rw [integer?_of_digits Nat.toDigits_ne_nil isDigit_of_mem_toDigits,
      Nat.ofDigitChars_ten_toDigits]
    rcases Nat.eq_zero_or_pos n with rfl | hn
    · exact .inl rfl
    · exact .inr (head?_toDigits hn)
  have hletter {c : Char} {w : List Char} (hc : c.isDigit = false) :
      Nat.toDigits 10 n ≠ c :: w := by
    intro hw
    have hdigit : c.isDigit := isDigit_of_mem_toDigits c (hw ▸ List.mem_cons_self)
    rw [hc] at hdigit
    cases hdigit
  rw [scalar?, if_neg (hletter (by decide)), if_neg (hletter (by decide)),
    isDateTime_eq_false isDigit_of_mem_toDigits, hinteger]
  rfl

/-! ## Lines -/

/-- Digits reach up to the end of their line. -/
theorem splitScalar_digits (h : ∀ d ∈ ds, d.isDigit) (r : List Char) :
    splitScalar [] (ds ++ '\n' :: r) = (ds, '\n' :: r) := by
  induction ds with
  | nil => rfl
  | cons d ds ih =>
    have hd : d.isDigit := h d List.mem_cons_self
    have hends : (endsScalar d || (d == '.' && !([] : List Char).isEmpty)) = false := by
      simp [endsScalar, beq_eq_false_of_isDigit hd]
    rw [List.cons_append, splitScalar, isSpace_eq_false_of_isDigit hd, hends,
      ih fun d hd => h d (List.mem_cons_of_mem _ hd)]
    rfl

/-- A digit opens neither a bracket nor a quote. -/
theorem readValue_eq_readScalar (hd : d.isDigit) (depth : Nat) :
    readValue depth (d :: r) = readScalar (d :: r) := by
  unfold readValue
  split
  · next heq =>
    obtain ⟨rfl, -⟩ := List.cons.inj heq
    cases hd
  · next heq =>
    obtain ⟨rfl, -⟩ := List.cons.inj heq
    cases hd
  · next heq =>
    obtain ⟨rfl, -⟩ := List.cons.inj heq
    cases hd
  · next heq =>
    obtain ⟨rfl, -⟩ := List.cons.inj heq
    cases hd
  · rfl

theorem readValue_toDigits (depth n : Nat) (r : List Char) :
    readValue depth (Nat.toDigits 10 n ++ '\n' :: r) = some (.integer (some n), '\n' :: r) := by
  have hscalar : readScalar (Nat.toDigits 10 n ++ '\n' :: r) =
      some (.integer (some n), '\n' :: r) := by
    simp only [readScalar, splitScalar_digits isDigit_of_mem_toDigits, scalar?_toDigits]
    rfl
  obtain ⟨d, ds, hds, hd⟩ := exists_toDigits_eq_cons n
  rw [hds, List.cons_append] at hscalar ⊢
  rw [readValue_eq_readScalar hd, hscalar]

theorem skipSpaces_toDigits (n : Nat) (r : List Char) :
    skipSpaces (' ' :: (Nat.toDigits 10 n ++ r)) = Nat.toDigits 10 n ++ r := by
  obtain ⟨d, ds, hds, hd⟩ := exists_toDigits_eq_cons n
  rw [hds, skipSpaces, List.dropWhile_cons_of_pos rfl, List.cons_append,
    List.dropWhile_cons_of_neg (by rw [isSpace_eq_false_of_isDigit hd]; decide)]

end Toml

/-- A configuration file that sets the indentation and nothing else. -/
def Config.indentationFile (indent : Nat) : String :=
  "[output]\nindent = " ++ toString indent ++ "\n"

namespace Toml

open Config

theorem readDocument_indentationFile (fuel n : Nat) :
    readDocument (fuel + 3) ("[output]\nindent = ".toList ++ (Nat.toDigits 10 n ++ ['\n'])) =
      some ⟨[], [⟨false, ⟨[], "output"⟩, [(⟨[], "indent"⟩, .integer (some n))]⟩]⟩ := by
  have hentry : readEntry (some ∘ skipSpaces) (readValue maxNesting)
      ("indent = ".toList ++ (Nat.toDigits 10 n ++ ['\n'])) =
      some ((⟨[], "indent"⟩, .integer (some n)), ['\n']) := by
    have hkey (r : List Char) : readKey ("indent = ".toList ++ r) =
        some (⟨[], "indent"⟩, '=' :: ' ' :: r) := rfl
    have hequals (r : List Char) : expectChar '=' (skipSpaces ('=' :: r)) = some ((), r) := rfl
    simp only [readEntry, hkey, Function.comp_apply, hequals, skipSpaces_toDigits,
      readValue_toDigits, bind, Option.bind]
  have hline : readDocument (fuel + 2) ("indent = ".toList ++ (Nat.toDigits 10 n ++ ['\n'])) =
      some ⟨[(⟨[], "indent"⟩, .integer (some n))], []⟩ := by
    have hstart (r : List Char) : readDocument (fuel + 2) ("indent = ".toList ++ r) =
        (readEntry (some ∘ skipSpaces) (readValue maxNesting) ("indent = ".toList ++ r)).bind
          fun entry => (readRestOfLine entry.2).bind fun line =>
            (readDocument (fuel + 1) line.2).bind fun d =>
              some ⟨entry.1 :: d.top, d.sections⟩ := rfl
    rw [hstart, hentry]
    rfl
  have hheader (r : List Char) : readDocument (fuel + 3) ("[output]\n".toList ++ r) =
      (readDocument (fuel + 2) r).bind fun d =>
        some ⟨[], ⟨false, ⟨[], "output"⟩, d.top⟩ :: d.sections⟩ := rfl
  have hsplit : "[output]\nindent = ".toList = "[output]\n".toList ++ "indent = ".toList := rfl
  rw [hsplit, List.append_assoc, hheader, hline]
  rfl

theorem read?_indentationFile (n : Nat) :
    read? (indentationFile n) =
      some [("output", .table .header [("indent", .integer (some n))])] := by
  have hlist : (indentationFile n).toList =
      "[output]\nindent = ".toList ++ (Nat.toDigits 10 n ++ ['\n']) := by
    unfold indentationFile
    rw [String.toList_append, String.toList_append, Nat.toString_eq_repr, Nat.toList_repr]
    simp
  have hmark (r : List Char) : dropByteOrderMark ("[output]\nindent = ".toList ++ r) =
      "[output]\nindent = ".toList ++ r := rfl
  have hfuel (r : List Char) :
      ∃ fuel, ("[output]\nindent = ".toList ++ r).length + 1 = fuel + 3 := ⟨_, rfl⟩
  obtain ⟨fuel, hfuel⟩ := hfuel (Nat.toDigits 10 n ++ ['\n'])
  simp only [read?, hlist, hmark, hfuel, readDocument_indentationFile]
  rfl

end Toml

/-- A configuration file can set every indentation. -/
theorem Config.ofText?_indentationFile (path : Option String) (n : UInt64) :
    ofText? path (indentationFile n.toNat) = some ⟨path, ⟨.events, n, false⟩⟩ := by
  have hindent : FileSettings.indent? (.integer (some n.toNat)) = some n := by
    have hfits : 0 ≤ (n.toNat : Int) ∧ (n.toNat : Int).toNat < UInt64.size :=
      ⟨Int.natCast_nonneg _, n.toNat_lt_size⟩
    rw [FileSettings.indent?, if_pos hfits]
    exact congrArg some UInt64.ofNat_toNat
  have hread : FileSettings.read? (indentationFile n.toNat) = some ⟨none, some n, none⟩ := by
    have hentry : FileSettings.unset.withEntry ("indent", .integer (some n.toNat)) =
        some ⟨none, some n, none⟩ := by
      rw [FileSettings.withEntry, hindent]
      rfl
    rw [FileSettings.read?, Toml.read?_indentationFile]
    show [("indent", Toml.Value.integer (some n.toNat))].foldlM FileSettings.withEntry .unset = _
    rw [List.foldlM_cons, hentry]
    rfl
  rw [ofText?, hread]
  rfl

end StatementLang
