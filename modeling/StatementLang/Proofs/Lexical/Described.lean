import StatementLang.Lexical.Lexeme
/-!
# What patterns describe

The pattern of a kind of token, read as plain lists of characters: a keyword or a symbol is its name
(`describes_fixed_iff`), the other kinds are runs of characters with a fixed beginning and end.
-/
namespace StatementLang.Lexical

open Pattern

/-- The pattern of the kind describes the text. -/
def Describes (k : TokenKind) (w : List Char) : Prop := ∃ p, pattern? k = some p ∧ Matches p w

variable {k : TokenKind} {w : List Char}

theorem pattern?_eq_literal (hk : k ∈ keywords ++ symbols) :
    pattern? k = some (.literal k.name.toList) := by
  cases k <;> first | rfl | exact absurd hk (by decide)

theorem matches_many_iff {p : Char → Bool} :
    Matches (.many (.char p)) w ↔ ∀ c ∈ w, p c = true :=
  matches_many_char_iff.trans List.all_eq_true

theorem matches_run_iff {p q : Char → Bool} :
    Matches (.seq (.char p) (.many (.char q))) w ↔
      ∃ c v, w = c :: v ∧ p c = true ∧ ∀ d ∈ v, q d = true := by
  constructor
  · intro h
    cases h with
    | seq hc hv =>
      cases hc with
      | char hc => exact ⟨_, _, rfl, hc, matches_many_iff.1 hv⟩
  · rintro ⟨c, v, rfl, hc, hv⟩
    exact .seq (s := [c]) (.char hc) (matches_many_iff.2 hv)

theorem describes_iff {p : Pattern} (hp : pattern? k = some p) : Describes k w ↔ Matches p w := by
  constructor
  · rintro ⟨q, hq, hmatch⟩
    rw [hp] at hq
    cases hq
    exact hmatch
  · exact fun h => ⟨p, hp, h⟩

theorem describes_fixed_iff (hk : k ∈ keywords ++ symbols) :
    Describes k w ↔ w = k.name.toList :=
  (describes_iff (pattern?_eq_literal hk)).trans matches_literal_iff

theorem describes_whitespace_iff :
    Describes .whitespace w ↔ ∃ c v, w = c :: v ∧ isBlank c = true ∧ ∀ d ∈ v, isBlank d = true :=
  (describes_iff rfl).trans matches_run_iff

theorem describes_ident_iff :
    Describes .ident w ↔ ∃ c v, w = c :: v ∧ isLetter c = true ∧ ∀ d ∈ v, isWordChar d = true :=
  (describes_iff rfl).trans matches_run_iff

theorem describes_lineComment_iff :
    Describes .lineComment w ↔ ∃ v, w = '/' :: '/' :: v ∧ ∀ d ∈ v, isInLine d = true := by
  refine (describes_iff rfl).trans ⟨fun h => ?_, ?_⟩
  · cases h with
    | seq hslashes hv =>
      rw [matches_literal_iff] at hslashes
      subst hslashes
      exact ⟨_, rfl, matches_many_iff.1 hv⟩
  · rintro ⟨v, rfl, hv⟩
    exact .seq (s := ['/', '/']) (matches_literal_iff.2 rfl) (matches_many_iff.2 hv)

theorem describes_string_iff :
    Describes .string w ↔ ∃ v, w = '"' :: (v ++ ['"']) ∧ ∀ d ∈ v, isInQuotes d = true := by
  refine (describes_iff rfl).trans ⟨fun h => ?_, ?_⟩
  · cases h with
    | seq hopen hinner =>
      cases hinner with
      | seq hbody hclose =>
        rw [matches_literal_iff] at hopen hclose
        subst hopen hclose
        exact ⟨_, rfl, matches_many_iff.1 hbody⟩
  · rintro ⟨v, rfl, hv⟩
    exact .seq (s := ['"']) (matches_literal_iff.2 rfl)
      (.seq (matches_many_iff.2 hv) (matches_literal_iff.2 rfl))

/-- Digits, and perhaps a point and digits again. -/
theorem describes_number_iff :
    Describes .number w ↔ ∃ c v, isDigit c = true ∧ (∀ d ∈ v, isDigit d = true) ∧
      (w = c :: v ∨ ∃ d u, w = c :: (v ++ '.' :: d :: u) ∧ isDigit d = true ∧
        ∀ e ∈ u, isDigit e = true) := by
  refine (describes_iff rfl).trans ⟨fun h => ?_, ?_⟩
  · cases h with
    | seq hwhole hfraction =>
      obtain ⟨c, v, rfl, hc, hv⟩ := matches_run_iff.1 hwhole
      refine ⟨c, v, hc, hv, ?_⟩
      cases hfraction with
      | absent => exact .inl (List.append_nil _)
      | present h =>
        cases h with
        | seq hpoint hdigits =>
          rw [matches_literal_iff] at hpoint
          obtain ⟨d, u, rfl, hd, hu⟩ := matches_run_iff.1 hdigits
          subst hpoint
          exact .inr ⟨d, u, rfl, hd, hu⟩
  · rintro ⟨c, v, hc, hv, hw⟩
    have hwhole : Matches (.oneOrMore (.char isDigit)) (c :: v) :=
      matches_run_iff.2 ⟨c, v, rfl, hc, hv⟩
    rcases hw with rfl | ⟨d, u, rfl, hd, hu⟩
    · rw [← List.append_nil (c :: v)]
      exact .seq hwhole .absent
    · have hfraction : Matches (.oneOrMore (.char isDigit)) (d :: u) :=
        matches_run_iff.2 ⟨d, u, rfl, hd, hu⟩
      exact .seq (s := c :: v) hwhole
        (.present (.seq (s := ['.']) (matches_literal_iff.2 rfl) hfraction))

/-- The kinds that have a pattern. -/
theorem mem_of_describes (h : Describes k w) :
    k ∈ keywords ++ symbols ∨ k ∈ [.whitespace, .lineComment, .ident, .number, .string] := by
  have key : ∀ k ∈ TokenKind.all, (pattern? k).isSome → k ∈ keywords ++ symbols ∨
      k ∈ [.whitespace, .lineComment, .ident, .number, .string] := by decide
  obtain ⟨p, hp, -⟩ := h
  exact key k (TokenKind.mem_all k) (hp ▸ rfl)

end StatementLang.Lexical
