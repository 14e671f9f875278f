import StatementLang.Proofs.Lexical.Spelling
/-!
# The longest match

Where a text is cut is settled by the patterns: the first lexeme is the longest prefix that the
pattern of some kind describes, a keyword before an identifier, and an error where there is no such
prefix (`firstLexeme_of_scan`). The lexer goes through its text by such cuts, and its tokens are
what it passes, without white space and comments (`lexing_is_longest_match`).

The first character of a text leaves few kinds to choose from (`mem_kinds_of_describes`), so each
branch of the scanner is compared with the kinds that could compete with it, and with no others.
-/
namespace StatementLang

namespace Lexical

open Pattern

/-! ## What the patterns ask for -/

/-- Some pattern describes a prefix of the text that is not empty. -/
def Matched (s : List Char) : Prop := ∃ k w, w ≠ [] ∧ w <+: s ∧ Describes k w

/-- The pattern of its kind describes the lexeme and no pattern describes a longer prefix of the
text. No other kind fits as well, but for an identifier that is spelled like a keyword. -/
structure LongestMatch (s : List Char) (x : Lexeme) : Prop where
  begins : x.chars <+: s
  described : Describes x.kind x.chars
  longest : ∀ k w, w <+: s → Describes k w → w.length ≤ x.chars.length
  priority : ∀ k, Describes k x.chars → k = x.kind ∨ k = .ident ∧ x.kind ∈ keywords

/-- What is cut off a text that no pattern fits: an opening quote with the rest of its line, or else
one character. -/
def errorText : List Char → List Char
  | [] => []
  | c :: s => if c = '"' then c :: s.takeWhile isInLine else [c]

/-- The lexeme is the one that the patterns ask for at the beginning of the text. -/
structure FirstLexeme (s : List Char) (x : Lexeme) : Prop where
  ne_nil : x.chars ≠ []
  token : Matched s → LongestMatch s x
  error : ¬ Matched s → x = ⟨.error, errorText s⟩

variable {k : TokenKind} {c : Char} {s r v w : List Char} {x : Lexeme}

/-! ## The first character -/

/-- The scanner tells these classes of characters apart. -/
inductive Head where
  | blank | letter | digit | quote | mark
  deriving DecidableEq

def head (c : Char) : Head :=
  if isBlank c then .blank
  else if isLetter c then .letter
  else if isDigit c then .digit
  else if c = '"' then .quote
  else .mark

theorem scan_cons (c : Char) (s : List Char) :
    scan (c :: s) = some (match head c with
      | .blank => (⟨.whitespace, c :: s.takeWhile isBlank⟩, s.dropWhile isBlank)
      | .letter => scanWord c s
      | .digit => scanNumber c s
      | .quote => scanQuoted s
      | .mark => scanSymbol c s) := by
  unfold head
  rw [scan]
  split_ifs <;> rfl

theorem head_spec (c : Char) :
    match head c with
      | .blank => isBlank c = true
      | .letter => isLetter c = true
      | .digit => isDigit c = true
      | .quote => c = '"'
      | .mark => c ≠ '"' := by
  unfold head
  split_ifs <;> assumption

theorem head_of_isBlank (hc : isBlank c = true) : head c = .blank := if_pos hc

theorem head_of_isLetter (hc : isLetter c = true) : head c = .letter := by
  rw [head, if_neg (Bool.eq_false_iff.1 (isBlank_eq_false stopsAtBlank_isLetter hc)), if_pos hc]

theorem head_of_isDigit (hc : isDigit c = true) : head c = .digit := by
  rw [head, if_neg (Bool.eq_false_iff.1 (isBlank_eq_false stopsAtBlank_isDigit hc)),
    if_neg (Bool.eq_false_iff.1 (isLetter_eq_false_of_isDigit hc)), if_pos hc]

/-- The kinds whose tokens can begin with such a character. -/
def Head.kinds : Head → List TokenKind
  | blank => [.whitespace]
  | letter => .ident :: keywords
  | digit => [.number]
  | quote => [.string]
  | mark => .lineComment :: symbols

theorem mem_kinds_of_fixed (hk : k ∈ keywords ++ symbols) :
    ∃ c v, k.name.toList = c :: v ∧ k ∈ (head c).kinds := by
  have hne : ∀ k ∈ keywords ++ symbols, k.name.toList ≠ [] := by decide
  have hhead : ∀ k ∈ keywords ++ symbols,
      k.name.toList.head?.all (fun c => decide (k ∈ (head c).kinds)) = true := by decide
  obtain ⟨c, v, hname⟩ := List.exists_cons_of_ne_nil (hne k hk)
  have hc := hhead k hk
  rw [hname, List.head?_cons, Option.all_some, decide_eq_true_iff] at hc
  exact ⟨c, v, hname, hc⟩

theorem mem_kinds_of_describes (h : Describes k w) : ∃ c v, w = c :: v ∧ k ∈ (head c).kinds := by
  rcases mem_of_describes h with hk | hk
  · rw [(describes_fixed_iff hk).1 h]
    exact mem_kinds_of_fixed hk
  · simp only [List.mem_cons, List.not_mem_nil, or_false] at hk
    rcases hk with rfl | rfl | rfl | rfl | rfl
    · obtain ⟨c, v, rfl, hc, -⟩ := describes_whitespace_iff.1 h
      exact ⟨c, v, rfl, head_of_isBlank hc ▸ List.mem_cons_self⟩
    · obtain ⟨v, rfl, -⟩ := describes_lineComment_iff.1 h
      exact ⟨'/', _, rfl, by decide⟩
    · obtain ⟨c, v, rfl, hc, -⟩ := describes_ident_iff.1 h
      exact ⟨c, v, rfl, head_of_isLetter hc ▸ List.mem_cons_self⟩
    · obtain ⟨c, v, hc, -, rfl | ⟨d, u, rfl, -⟩⟩ := describes_number_iff.1 h
      · exact ⟨c, v, rfl, head_of_isDigit hc ▸ List.mem_cons_self⟩
      · exact ⟨c, _, rfl, head_of_isDigit hc ▸ List.mem_cons_self⟩
    · obtain ⟨v, rfl, -⟩ := describes_string_iff.1 h
      exact ⟨'"', _, rfl, by decide⟩

/-! ## Branch by branch -/

theorem length_le_takeWhile {p : Char → Bool} (hv : ∀ d ∈ v, p d = true) (h : v <+: s) :
    v.length ≤ (s.takeWhile p).length := by
  obtain ⟨rest, rfl⟩ := h
  rw [List.takeWhile_append_of_pos hv, List.length_append]
  exact Nat.le_add_right _ _

/-- A run of characters ends before one that does not belong to it. -/
theorem run_of_prefix {p : Char → Bool} {d : Char} {u : List Char} (hv : ∀ e ∈ v, p e = true)
    (hd : p d = false) (h : v ++ d :: u <+: s) :
    s.takeWhile p = v ∧ d :: u <+: s.dropWhile p := by
  obtain ⟨rest, rfl⟩ := h
  rw [List.append_assoc, List.takeWhile_append_of_pos hv, List.dropWhile_append_of_pos hv,
    List.cons_append, List.takeWhile_cons, List.dropWhile_cons, hd]
  exact ⟨List.append_nil v, rest, rfl⟩

theorem matched_of_longestMatch (h : LongestMatch s x) (hx : x.chars ≠ []) : Matched s :=
  ⟨x.kind, x.chars, hx, h.begins, h.described⟩

theorem FirstLexeme.of_match (hx : x.chars ≠ []) (h : LongestMatch s x) : FirstLexeme s x :=
  ⟨hx, fun _ => h, fun hnone => absurd (matched_of_longestMatch h hx) hnone⟩

theorem FirstLexeme.of_error (hne : errorText s ≠ []) (h : ¬ Matched s) :
    FirstLexeme s ⟨.error, errorText s⟩ :=
  ⟨hne, fun hm => absurd hm h, fun _ => rfl⟩

/-- It is enough to compare a lexeme with the kinds that can begin like it. -/
theorem longestMatch_of (described : Describes x.kind x.chars) (begins : x.chars <+: c :: s)
    (longest : ∀ k ∈ (head c).kinds, ∀ v, v <+: s → Describes k (c :: v) →
      (c :: v).length ≤ x.chars.length)
    (priority : ∀ k ∈ (head c).kinds, Describes k x.chars →
      k = x.kind ∨ k = .ident ∧ x.kind ∈ keywords) : LongestMatch (c :: s) x where
  begins := begins
  described := described
  longest k w hw h := by
    obtain ⟨d, v, rfl, hk⟩ := mem_kinds_of_describes h
    obtain ⟨rfl, hv⟩ := List.cons_prefix_cons.1 hw
    exact longest k hk v hv h
  priority k h := by
    obtain ⟨d, v, hx, hk⟩ := mem_kinds_of_describes h
    rw [hx] at begins
    obtain ⟨rfl, -⟩ := List.cons_prefix_cons.1 begins
    exact priority k hk h

/-! ### White space and words -/

theorem longestMatch_blanks (hc : head c = .blank) (s : List Char) :
    LongestMatch (c :: s) ⟨.whitespace, c :: s.takeWhile isBlank⟩ := by
  have hblank : isBlank c = true := by simpa only [hc] using head_spec c
  have hmem : ∀ k ∈ (head c).kinds, k = .whitespace := by
    rw [hc]
    exact fun k hk => List.mem_singleton.1 hk
  refine longestMatch_of ?_ ?_ (fun k hk v hv h => ?_) fun k hk _ => .inl (hmem k hk)
  · exact describes_whitespace_iff.2 ⟨c, _, rfl, hblank, fun d => List.mem_takeWhile_imp⟩
  · exact (List.prefix_cons_inj c).2 (List.takeWhile_prefix _)
  · rw [hmem k hk] at h
    obtain ⟨_, _, hw, -, hblanks⟩ := describes_whitespace_iff.1 h
    cases hw
    exact Nat.succ_le_succ (length_le_takeWhile hblanks hv)

/-- A keyword that is found is spelled so. -/
theorem of_keyword?_eq_some (h : keyword? w = some k) : k ∈ keywords ∧ k.name.toList = w :=
  ⟨List.mem_of_find?_eq_some h,
    beq_iff_eq.1 (List.find?_some (p := fun k : TokenKind => k.name.toList == w) h)⟩

theorem longestMatch_word (hc : head c = .letter) (s : List Char) :
    LongestMatch (c :: s) (scanWord c s).1 := by
  have hletter : isLetter c = true := by simpa only [hc] using head_spec c
  have hmem : ∀ k ∈ (head c).kinds, k = .ident ∨ k ∈ keywords := by
    rw [hc]
    exact fun k hk => List.mem_cons.1 hk
  have hrun : ∀ d ∈ s.takeWhile isWordChar, isWordChar d = true := fun d => List.mem_takeWhile_imp
  refine longestMatch_of ?_ ⟨_, append_scanWord c s⟩ (fun k hk v hv h => ?_) fun k hk h => ?_
  · show Describes ((keyword? (c :: s.takeWhile isWordChar)).getD .ident) _
    cases hw : keyword? (c :: s.takeWhile isWordChar) with
    | none => exact describes_ident_iff.2 ⟨c, _, rfl, hletter, hrun⟩
    | some k =>
      obtain ⟨hk, hname⟩ := of_keyword?_eq_some hw
      exact (describes_fixed_iff (List.mem_append_left _ hk)).2 hname.symm
  · refine Nat.succ_le_succ (length_le_takeWhile (p := isWordChar) ?_ hv)
    rcases hmem k hk with rfl | hk
    · obtain ⟨_, _, hw, -, hv'⟩ := describes_ident_iff.1 h
      cases hw
      exact hv'
    · have hname := (describes_fixed_iff (List.mem_append_left _ hk)).1 h
      have hall : ∀ k ∈ keywords, k.name.toList.all isWordChar = true := by decide
      have hword := List.all_eq_true.1 (hall k hk)
      exact fun d hd => hword d (hname ▸ List.mem_cons_of_mem c hd)
  · show k = (keyword? (c :: s.takeWhile isWordChar)).getD .ident ∨ _
    rcases hmem k hk with rfl | hk
    · cases hw : keyword? (c :: s.takeWhile isWordChar) with
      | none => exact .inl rfl
      | some k => exact .inr ⟨rfl, by simpa [scanWord, hw] using (of_keyword?_eq_some hw).1⟩
    · have hname : c :: s.takeWhile isWordChar = k.name.toList :=
        (describes_fixed_iff (List.mem_append_left _ hk)).1 h
      rw [hname, keyword?_name hk]
      exact .inl rfl

/-! ### Numbers -/

theorem scanNumber_cases (c : Char) (s : List Char) :
    (∃ d r, isDigit d = true ∧ s.dropWhile isDigit = '.' :: d :: r ∧ (scanNumber c s).1 =
      ⟨.number, c :: (s.takeWhile isDigit ++ '.' :: d :: r.takeWhile isDigit)⟩) ∨
    (∀ d r, s.dropWhile isDigit = '.' :: d :: r → isDigit d = false) ∧
      (scanNumber c s).1 = ⟨.number, c :: s.takeWhile isDigit⟩ := by
  unfold scanNumber
  split
  · rename_i d r hdrop
    rw [hdrop]
    by_cases hd : isDigit d = true
    · rw [if_pos hd]
      exact .inl ⟨d, r, hd, rfl, rfl⟩
    · rw [if_neg hd]
      refine .inr ⟨fun d' r' h => ?_, rfl⟩
      cases h
      exact Bool.eq_false_iff.2 hd
  · rename_i hdrop
    exact .inr ⟨fun d r h => absurd h (hdrop d r), rfl⟩

/-- A number is the digits that come first, or it goes on with a point where they end. -/
theorem number_of_prefix (hv : v <+: s) (h : Describes .number (c :: v)) :
    v.length ≤ (s.takeWhile isDigit).length ∨ ∃ d u, isDigit d = true ∧
      (∀ e ∈ u, isDigit e = true) ∧ v = s.takeWhile isDigit ++ '.' :: d :: u ∧
      '.' :: d :: u <+: s.dropWhile isDigit := by
  obtain ⟨_, a, -, ha, hw | ⟨d, u, hw, hd, hu⟩⟩ := describes_number_iff.1 h
  · cases hw
    exact .inl (length_le_takeWhile ha hv)
  · cases hw
    obtain ⟨hrun, hrest⟩ := run_of_prefix ha (by decide) hv
    exact .inr ⟨d, u, hd, hu, by rw [hrun], hrest⟩

theorem longestMatch_number (hc : head c = .digit) (s : List Char) :
    LongestMatch (c :: s) (scanNumber c s).1 := by
  have hdigit : isDigit c = true := by simpa only [hc] using head_spec c
  have hmem : ∀ k ∈ (head c).kinds, k = .number := by
    rw [hc]
    exact fun k hk => List.mem_singleton.1 hk
  have hrun (s : List Char) : ∀ d ∈ s.takeWhile isDigit, isDigit d = true :=
    fun d => List.mem_takeWhile_imp
  have begins : (scanNumber c s).1.chars <+: c :: s := ⟨_, append_scanNumber c s⟩
  rcases scanNumber_cases c s with ⟨d, r, hd, hdrop, hscan⟩ | ⟨hdrop, hscan⟩
  · rw [hscan] at begins ⊢
    refine longestMatch_of ?_ begins (fun k hk v hv h => ?_) fun k hk _ => .inl (hmem k hk)
    · exact describes_number_iff.2 ⟨c, _, hdigit, hrun s, .inr ⟨d, _, rfl, hd, hrun r⟩⟩
    · rw [hmem k hk] at h
      refine Nat.succ_le_succ ?_
      rw [List.length_append]
      rcases number_of_prefix hv h with hle | ⟨d', u, -, hu, rfl, hrest⟩
      · exact Nat.le_trans hle (Nat.le_add_right _ _)
      · rw [hdrop] at hrest
        obtain ⟨-, hrest⟩ := List.cons_prefix_cons.1 hrest
        obtain ⟨-, hrest⟩ := List.cons_prefix_cons.1 hrest
        have hle := length_le_takeWhile hu hrest
        simp only [List.length_append, List.length_cons]
        omega
  · rw [hscan] at begins ⊢
    refine longestMatch_of ?_ begins (fun k hk v hv h => ?_) fun k hk _ => .inl (hmem k hk)
    · exact describes_number_iff.2 ⟨c, _, hdigit, hrun s, .inl rfl⟩
    · rw [hmem k hk] at h
      refine Nat.succ_le_succ ?_
      rcases number_of_prefix hv h with hle | ⟨d, u, hd, -, -, rest, hrest⟩
      · exact hle
      · -- the digits end without a point and a digit behind it
        rw [hdrop d (u ++ rest) hrest.symm] at hd
        cases hd

/-! ### Strings -/

theorem scanQuoted_cases (s : List Char) :
    (∃ r, s.dropWhile isInQuotes = '"' :: r ∧
      (scanQuoted s).1 = ⟨.string, '"' :: (s.takeWhile isInQuotes ++ ['"'])⟩) ∨
    (∀ r, s.dropWhile isInQuotes ≠ '"' :: r) ∧
      (scanQuoted s).1 = ⟨.error, '"' :: s.takeWhile isInQuotes⟩ := by
  unfold scanQuoted
  split
  · rename_i r hdrop
    exact .inl ⟨r, hdrop, rfl⟩
  · rename_i hdrop
    exact .inr ⟨hdrop, rfl⟩

/-- A string constant goes up to the next quote, and that is on its line. -/
theorem string_ends_at_quote (hv : v <+: s) (h : Describes .string ('"' :: v)) :
    v = s.takeWhile isInQuotes ++ ['"'] ∧ ∃ r, s.dropWhile isInQuotes = '"' :: r := by
  obtain ⟨b, hw, hb⟩ := describes_string_iff.1 h
  cases hw
  obtain ⟨hrun, rest, hrest⟩ := run_of_prefix hb (by decide) hv
  exact ⟨by rw [hrun], rest, hrest.symm⟩

/-- Where a line ends before a quote is met, the rest of the line is what could have been quoted. -/
theorem takeWhile_isInLine (h : ∀ r, s.dropWhile isInQuotes ≠ '"' :: r) :
    s.takeWhile isInLine = s.takeWhile isInQuotes := by
  induction s with
  | nil => rfl
  | cons c s ih =>
    by_cases hc : isInQuotes c = true
    · have hline : isInLine c = true := ((Bool.and_eq_true _ _).mp hc).2
      rw [List.dropWhile_cons, if_pos hc] at h
      rw [List.takeWhile_cons, List.takeWhile_cons, if_pos hc, if_pos hline, ih h]
    · rw [List.dropWhile_cons, if_neg hc] at h
      have hquote : c ≠ '"' := fun hq => h s (hq ▸ rfl)
      have hline : isInLine c = false := by
        rw [isInQuotes, Bool.and_eq_true, not_and, bne_iff_ne] at hc
        exact Bool.eq_false_iff.2 (hc hquote)
      rw [List.takeWhile_cons, List.takeWhile_cons, if_neg hc, hline]
      rfl

theorem firstLexeme_quoted (s : List Char) : FirstLexeme ('"' :: s) (scanQuoted s).1 := by
  have hmem : ∀ k ∈ (head '"').kinds, k = .string := fun k hk => List.mem_singleton.1 hk
  rcases scanQuoted_cases s with ⟨r, hdrop, hscan⟩ | ⟨hdrop, hscan⟩
  · have begins : (scanQuoted s).1.chars <+: '"' :: s := ⟨_, append_scanQuoted s⟩
    rw [hscan] at begins ⊢
    refine .of_match (List.cons_ne_nil _ _) (longestMatch_of ?_ begins (fun k hk v hv h => ?_)
      fun k hk _ => .inl (hmem k hk))
    · exact describes_string_iff.2 ⟨_, rfl, fun d => List.mem_takeWhile_imp⟩
    · rw [hmem k hk] at h
      rw [(string_ends_at_quote hv h).1]
  · have herror : errorText ('"' :: s) = '"' :: s.takeWhile isInQuotes := by
      rw [errorText, if_pos rfl, takeWhile_isInLine hdrop]
    rw [hscan, ← herror]
    refine .of_error (herror ▸ List.cons_ne_nil _ _) ?_
    rintro ⟨k, w, -, hw, h⟩
    obtain ⟨c, v, rfl, hk⟩ := mem_kinds_of_describes h
    obtain ⟨rfl, hv⟩ := List.cons_prefix_cons.1 hw
    rw [hmem k hk] at h
    obtain ⟨r, hr⟩ := (string_ends_at_quote hv h).2
    exact hdrop r hr

/-! ### Symbols and comments -/

/-- Of two symbols with which a text can begin, the one listed first is the longer one. -/
theorem length_le_of_symbol? (h : symbol? s = some k) {l : TokenKind} (hl : l ∈ symbols)
    (hs : l.name.toList <+: s) : l.name.toList.length ≤ k.name.toList.length := by
  have horder : symbols.Pairwise fun a b => ¬ a.name.toList <+: b.name.toList := by decide
  obtain ⟨hk, as, bs, hsplit, hbefore⟩ := List.find?_eq_some_iff_append.1 h
  have hks : k.name.toList <+: s := List.isPrefixOf_iff_prefix.1 hk
  rw [hsplit] at hl horder
  rcases List.mem_append.1 hl with hl | hl
  · have hnot := hbefore l hl
    rw [List.isPrefixOf_iff_prefix.2 hs] at hnot
    cases hnot
  · rcases List.mem_cons.1 hl with rfl | hl
    · exact Nat.le_refl _
    · rcases List.prefix_or_prefix_of_prefix hks hs with hkl | hlk
      · exact absurd hkl (List.rel_of_pairwise_cons (List.pairwise_append.1 horder).2.1 hl)
      · exact hlk.length_le

theorem prefix_ne_of_symbol? (h : symbol? s = none) (hk : k ∈ symbols) : ¬ k.name.toList <+: s :=
  fun hs => List.find?_eq_none.1 h k hk (List.isPrefixOf_iff_prefix.2 hs)

theorem scanSymbol_cases (c : Char) (s : List Char) :
    (∃ r, c = '/' ∧ s = '/' :: r ∧
      (scanSymbol c s).1 = ⟨.lineComment, '/' :: '/' :: r.takeWhile isInLine⟩) ∨
    (∀ v, c :: s ≠ '/' :: '/' :: v) ∧
      ((∃ k, symbol? (c :: s) = some k ∧ (scanSymbol c s).1 = ⟨k, k.name.toList⟩) ∨
        symbol? (c :: s) = none ∧ (scanSymbol c s).1 = ⟨.error, [c]⟩) := by
  unfold scanSymbol
  split
  · rename_i h
    obtain ⟨rfl, hs⟩ := h
    obtain ⟨r, rfl⟩ := List.head?_eq_some_iff.1 hs
    exact .inl ⟨r, rfl, rfl, rfl⟩
  · rename_i h
    refine .inr ⟨?_, ?_⟩
    · rintro v hv
      cases hv
      exact h ⟨rfl, rfl⟩
    · cases hs : symbol? (c :: s) with
      | some k => exact .inl ⟨k, rfl, rfl⟩
      | none => exact .inr ⟨rfl, rfl⟩

theorem mem_kinds_mark (hc : head c = .mark) (hk : k ∈ (head c).kinds) :
    k = .lineComment ∨ k ∈ symbols := by
  rw [hc] at hk
  exact List.mem_cons.1 hk

theorem firstLexeme_comment (r : List Char) :
    FirstLexeme ('/' :: '/' :: r) ⟨.lineComment, '/' :: '/' :: r.takeWhile isInLine⟩ := by
  have hslash : ∀ k ∈ symbols, k.name.toList.length ≤ 2 := by decide
  refine .of_match (List.cons_ne_nil _ _) (longestMatch_of ?_ ?_ (fun k hk v hv h => ?_) ?_)
  · exact describes_lineComment_iff.2 ⟨_, rfl, fun d => List.mem_takeWhile_imp⟩
  · exact (List.prefix_append_right_inj ['/', '/']).2 (List.takeWhile_prefix _)
  · rcases mem_kinds_mark (by decide) hk with rfl | hk
    · obtain ⟨a, hw, ha⟩ := describes_lineComment_iff.1 h
      cases hw
      obtain ⟨-, hv⟩ := List.cons_prefix_cons.1 hv
      exact Nat.succ_le_succ (Nat.succ_le_succ (length_le_takeWhile ha hv))
    · rw [(describes_fixed_iff (List.mem_append_right _ hk)).1 h]
      exact Nat.le_trans (hslash k hk) (Nat.le_add_left 2 _)
  · rintro k hk h
    rcases mem_kinds_mark (by decide) hk with rfl | hk
    · exact .inl rfl
    · -- no symbol begins with two slashes
      have hname := (describes_fixed_iff (List.mem_append_right _ hk)).1 h
      have hnone : ∀ k ∈ symbols, ¬ ['/', '/'] <+: k.name.toList := by decide
      exact absurd ⟨_, hname⟩ (hnone k hk)

theorem firstLexeme_mark (hc : head c = .mark) (s : List Char) :
    FirstLexeme (c :: s) (scanSymbol c s).1 := by
  rcases scanSymbol_cases c s with
    ⟨r, rfl, rfl, hscan⟩ | ⟨hcomment, ⟨k, hk, hscan⟩ | ⟨hnone, hscan⟩⟩
  · rw [hscan]
    exact firstLexeme_comment r
  · have hmem : k ∈ symbols := mem_of_symbol? hk
    have hkind : ∀ l ∈ (head c).kinds, ∀ w, w <+: c :: s → Describes l w → l ∈ symbols ∧
        w = l.name.toList := by
      intro l hl w hw h
      rcases mem_kinds_mark hc hl with rfl | hl
      · obtain ⟨v, rfl, -⟩ := describes_lineComment_iff.1 h
        obtain ⟨rest, hrest⟩ := hw
        exact absurd hrest.symm (hcomment (v ++ rest))
      · exact ⟨hl, (describes_fixed_iff (List.mem_append_right _ hl)).1 h⟩
    have begins : (scanSymbol c s).1.chars <+: c :: s := ⟨_, append_scanSymbol c s⟩
    have hne : (scanSymbol c s).1.chars ≠ [] := scanSymbol_ne_nil c s
    rw [hscan] at begins hne ⊢
    refine .of_match hne (longestMatch_of ?_ begins (fun l hl v hv h => ?_) fun l hl h => ?_)
    · exact (describes_fixed_iff (List.mem_append_right _ hmem)).2 rfl
    · have hw : c :: v <+: c :: s := (List.prefix_cons_inj c).2 hv
      obtain ⟨hl, hname⟩ := hkind l hl _ hw h
      rw [hname]
      exact length_le_of_symbol? hk hl (hname ▸ hw)
    · obtain ⟨-, hname⟩ := hkind l hl _ begins h
      exact .inl (TokenKind.name_injective (String.toList_inj.1 hname.symm))
  · have hquote : c ≠ '"' := by simpa only [hc] using head_spec c
    have herror : errorText (c :: s) = [c] := if_neg hquote
    rw [hscan, ← herror]
    refine .of_error (herror ▸ List.cons_ne_nil _ _) ?_
    rintro ⟨k, w, -, hw, h⟩
    obtain ⟨d, v, rfl, hk⟩ := mem_kinds_of_describes h
    obtain ⟨rfl, -⟩ := List.cons_prefix_cons.1 hw
    rcases mem_kinds_mark hc hk with rfl | hk
    · obtain ⟨a, hv, -⟩ := describes_lineComment_iff.1 h
      obtain ⟨rest, hrest⟩ := hw
      rw [hv] at hrest
      exact hcomment (a ++ rest) hrest.symm
    · rw [(describes_fixed_iff (List.mem_append_right _ hk)).1 h] at hw
      exact prefix_ne_of_symbol? hnone hk hw

/-- What the scanner cuts off is what the patterns ask for. -/
theorem firstLexeme_of_scan (h : scan s = some (x, r)) : FirstLexeme s x := by
  cases s with
  | nil => cases h
  | cons c s =>
    have hx := ne_nil_of_scan h
    rw [scan_cons] at h
    cases hc : head c with
    | blank =>
      rw [hc] at h
      cases h
      exact .of_match hx (longestMatch_blanks hc s)
    | letter =>
      rw [hc] at h
      cases h
      exact .of_match hx (longestMatch_word hc s)
    | digit =>
      rw [hc] at h
      obtain rfl : (scanNumber c s).1 = x := congrArg Prod.fst (Option.some.inj h)
      exact .of_match hx (longestMatch_number hc s)
    | quote =>
      rw [hc] at h
      obtain rfl : (scanQuoted s).1 = x := congrArg Prod.fst (Option.some.inj h)
      obtain rfl : c = '"' := by simpa only [hc] using head_spec c
      exact firstLexeme_quoted s
    | mark =>
      rw [hc] at h
      obtain rfl : (scanSymbol c s).1 = x := congrArg Prod.fst (Option.some.inj h)
      exact firstLexeme_mark hc s

/-- The pattern of its kind describes every lexeme that is no error. -/
theorem describes_of_scan (h : scan s = some (x, r)) (hx : x.kind ≠ .error) :
    Describes x.kind x.chars := by
  have hfirst := firstLexeme_of_scan h
  by_cases hm : Matched s
  · exact (hfirst.token hm).described
  · exact absurd (congrArg Lexeme.kind (hfirst.error hm)) hx

/-! ## Cut by cut -/

/-- The lexemes of a text make up the text. -/
theorem flatMap_chars_lexemes (s : List Char) : (lexemes s).flatMap Lexeme.chars = s := by
  fun_induction lexemes s with
  | case1 s hs => exact (eq_nil_of_scan hs).symm
  | case2 s x r hs _ ih => rw [List.flatMap_cons, ih, append_of_scan hs]

/-- The lexemes behind a cut are those of the text behind it. -/
theorem lexemes_of_append {past ys : List Lexeme} (h : lexemes s = past ++ ys) :
    lexemes (ys.flatMap Lexeme.chars) = ys := by
  induction past generalizing s with
  | nil =>
    obtain rfl : lexemes s = ys := h
    rw [flatMap_chars_lexemes]
  | cons y past ih =>
    cases hs : scan s with
    | none => rw [lexemes_of_scan_eq_none hs] at h; cases h
    | some p =>
      obtain ⟨z, r⟩ := p
      rw [lexemes_of_scan hs] at h
      exact ih (List.cons.inj h).2

theorem firstLexeme_of_lexemes {past rest : List Lexeme} (h : lexemes s = past ++ x :: rest) :
    FirstLexeme ((x :: rest).flatMap Lexeme.chars) x := by
  have hlexemes := lexemes_of_append h
  cases hs : scan ((x :: rest).flatMap Lexeme.chars) with
  | none => rw [lexemes_of_scan_eq_none hs] at hlexemes; cases hlexemes
  | some p =>
    obtain ⟨y, r⟩ := p
    rw [lexemes_of_scan hs] at hlexemes
    obtain rfl : y = x := (List.cons.inj hlexemes).1
    exact firstLexeme_of_scan hs

end Lexical

open Lexical

namespace Lexer

/-- The lexer goes from `l` to `l'` by stepping over the lexemes `xs`. -/
inductive Passes : Lexer → List Lexeme → Lexer → Prop
  | done {l : Lexer} : Passes l [] l
  | lexeme {l l₁ l' : Lexer} {x : Lexeme} {xs : List Lexeme} (next : l.lexeme? = some (x, l₁))
      (rest : Passes l₁ xs l') : Passes l (x :: xs) l'

/-- A lexer passes all lexemes of its text. -/
theorem exists_passes (s : List Char) (n : UInt32) :
    ∃ last, Passes ⟨s, n⟩ (lexemes s) last ∧ last.lexeme? = none := by
  fun_induction lexemes s generalizing n with
  | case1 s hs => exact ⟨_, .done, lexeme?_of_scan_eq_none hs n⟩
  | case2 s x r hs _ ih =>
    obtain ⟨last, hpasses, hend⟩ := ih (n + UInt32.ofNat (lineFeeds x.chars))
    exact ⟨last, .lexeme (lexeme?_of_scan hs n) hpasses, hend⟩

/-- **Lexing is longest match with keyword priority.** The lexer steps through its whole text, and
what it steps over makes up the text. At each cut the lexeme is the longest prefix of the remaining
text that a pattern describes, of the keyword if it is one. Where no pattern fits, it is an error:
an opening quote with the rest of its line, or a single character. The tokens are these lexemes
without white space and comments. -/
theorem lexing_is_longest_match (source : String) :
    ∃ (xs : List Lexeme) (last : Lexer),
      Passes (ofSource source) xs last ∧ last.lexeme? = none ∧
      xs.flatMap Lexeme.chars = source.toList ∧
      (∀ past x rest, xs = past ++ x :: rest →
        FirstLexeme ((x :: rest).flatMap Lexeme.chars) x) ∧
      lex source = tokensFrom 1 xs := by
  obtain ⟨last, hpasses, hend⟩ := exists_passes source.toList 1
  refine ⟨lexemes source.toList, last, hpasses, hend, flatMap_chars_lexemes _, ?_, lex_eq source⟩
  exact fun past x rest h => firstLexeme_of_lexemes h

end Lexer
end StatementLang
