import StatementLang.Proofs.Parser.Completeness
import StatementLang.Transcript
/-!
# What a parse accepts

A parse succeeds exactly if its tokens begin with a program that nests no deeper than the limit
(`parse_accepts_iff`). No two programs begin the same feed (`program_unique`), so the one that was
accepted is the one that the events tell (`events_tell_unique_program`).
-/
namespace StatementLang.Parser

open ParseTree TokenFeed

variable {σ : Type} [TokenFeed σ] {f : σ}

/-- A parse that succeeds has read a program and told it. -/
theorem exists_program_of_error_eq_none (h : (parse f).error = none) :
    ∃ t, IsProgram t ∧ t.height ≤ maxDepth ∧ (parse f).events = t.events ∧ Reads f 0 t.yield := by
  obtain ⟨v, s, hsteps, hhalt, hp⟩ := exists_steps_halt f
  rw [hp] at h ⊢
  have hv : v = .accepted := error_eq_none_iff.1 h
  subst hv
  have hgrown := growing_of_steps (within_some.2 (by decide)) hsteps
  obtain ⟨t, ht, room, he⟩ := exists_program_of_accepted hgrown hhalt
  refine ⟨t, ht, within_some.1 room, he, ?_⟩
  have hon : s.On f := on_of_steps hsteps (on_opened f)
  have hy : s.accepted = t.yield := by rw [State.accepted, he, terminals_events]
  exact hy ▸ hon.accepted

theorem parse_of_program {t : ParseTree} (h : IsProgram t) (hf : Reads f 0 t.yield)
    (room : t.height ≤ maxDepth) : (parse f).error = none ∧ (parse f).events = t.events := by
  obtain ⟨hv, he⟩ := parseWithin_of_program h hf (within_some.2 room)
  exact ⟨error_eq_none_iff.2 hv, he⟩

/-- No feed begins with two programs, however deep they nest. -/
theorem program_unique {t u : ParseTree} (ht : IsProgram t) (hu : IsProgram u)
    (hft : Reads f 0 t.yield) (hfu : Reads f 0 u.yield) : t = u := by
  -- A parse without a limit tells both.
  have h1 := (parseWithin_of_program ht hft (within_none _)).2
  have h2 := (parseWithin_of_program hu hfu (within_none _)).2
  exact eq_of_events_eq (h1.symm.trans h2)

/-- **Acceptance.** A parse of a list of tokens succeeds if and only if the list begins with tokens
of the kinds of a program that nests at most 1024 rules. What comes after them does not matter. -/
theorem parse_accepts_iff (ts : List Token) :
    (parse (TokenQueue.ofList ts)).error = none ↔
      ∃ (w rest : List Token) (t : ParseTree), ts = w ++ rest ∧ IsProgram t ∧
        t.yield.map Token.kind = w.map Token.kind ∧ t.height ≤ 1024 := by
  constructor
  · intro h
    obtain ⟨t, ht, room, -, hreads⟩ := exists_program_of_error_eq_none h
    obtain ⟨rest, hts⟩ := TokenQueue.prefix_of_reads hreads ht.kind_ne_eof
    exact ⟨t.yield, rest, t, hts.symm, ht, rfl, room⟩
  · rintro ⟨w, rest, t, rfl, ht, hw, room⟩
    obtain ⟨u, hu, hy, hheight⟩ := exists_program_of_kinds ht hw.symm
    have hreads : Reads (TokenQueue.ofList (w ++ rest)) 0 u.yield :=
      TokenQueue.reads_of_prefix (hy ▸ List.prefix_append w rest)
    exact (parse_of_program hu hreads (hheight ▸ room)).1

/-- **The events of a successful parse are its derivation tree.** There is exactly one program at
the front of the tokens, and what a new transcript hears is that program: every token unchanged,
sums, products and argument lists nested to the right, every statement list flat. -/
theorem events_tell_unique_program {ts : List Token}
    (h : (parse (TokenQueue.ofList ts)).error = none) :
    ∃ (w : List Token) (t : ParseTree), (w <+: ts ∧ IsProgram t ∧ t.yield = w) ∧
      (∀ (w' : List Token) (t' : ParseTree), w' <+: ts → IsProgram t' → t'.yield = w' →
        w' = w ∧ t' = t) ∧
      ((parse (TokenQueue.ofList ts)).notices.foldl Transcript.hear .empty).events = t.events ∧
      RightNested t := by
  obtain ⟨t, ht, -, he, hreads⟩ := exists_program_of_error_eq_none h
  have hw : t.yield <+: ts := TokenQueue.prefix_of_reads hreads ht.kind_ne_eof
  refine ⟨t.yield, t, ⟨hw, ht, rfl⟩, ?_, ?_, rightNested_of_derives ht.1⟩
  · rintro w' t' hw' ht' rfl
    have hreads' : Reads (TokenQueue.ofList ts) 0 t'.yield := TokenQueue.reads_of_prefix hw'
    have htt : t' = t := program_unique ht' ht hreads' hreads
    exact ⟨congrArg yield htt, htt⟩
  · rw [← Transcript.append_eq_foldl_hear]
    exact he

/-- The tokens of `begin x := a + b + c end`, and one token more. -/
theorem events_tell_unique_sum :
    let ts : List Token := [⟨.kwBegin, 1, none⟩, ⟨.ident, 1, some "x"⟩, ⟨.assign, 1, none⟩,
      ⟨.ident, 1, some "a"⟩, ⟨.plus, 1, none⟩, ⟨.ident, 1, some "b"⟩, ⟨.plus, 2, none⟩,
      ⟨.ident, 2, some "c"⟩, ⟨.kwEnd, 3, none⟩, ⟨.kwEnd, 4, none⟩]
    (parse (TokenQueue.ofList ts)).error = none ∧
      ∃ (w : List Token) (t : ParseTree), (w <+: ts ∧ IsProgram t ∧ t.yield = w) ∧
        (∀ (w' : List Token) (t' : ParseTree), w' <+: ts → IsProgram t' → t'.yield = w' →
          w' = w ∧ t' = t) ∧
        ((parse (TokenQueue.ofList ts)).notices.foldl Transcript.hear .empty).events = t.events ∧
        RightNested t := by
  intro ts
  have h : (parse (TokenQueue.ofList ts)).error = none := by
    rw [parse_eq_of_runFor (n := 100) rfl]
    rfl
  exact ⟨h, events_tell_unique_program h⟩

end StatementLang.Parser
