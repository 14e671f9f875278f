import StatementLang.Proofs.Feed.Streams
import StatementLang.Proofs.Parser.Locality
import StatementLang.Proofs.Parser.Nesting
/-!
# What a limit changes

A parse with a limit is the parse without one, cut off where a rule would be one too many
(`limit_only_truncates`). Up to a halt both make the same moves; only the halt for depth is no halt
without a limit, and there the other parse goes on by commencing the rule. That this is the first
time that so many rules would be open is an invariant of the limited parse
(`nestsWithin_of_steps`).
-/
namespace StatementLang

namespace Event

/-- At no time are more than `n` rules open. -/
def NestsWithin (n : Nat) (es : List Event) : Prop :=
  ∀ past rules, past <+: es → openRules [] past = some rules → rules.length ≤ n

theorem nestsWithin_nil (n : Nat) : NestsWithin n [] := by
  intro past rules hpast hrules
  rw [List.prefix_nil.1 hpast] at hrules
  cases hrules
  exact Nat.zero_le n

theorem nestsWithin_concat {n : Nat} {es : List Event} {e : Event} (hes : NestsWithin n es)
    (he : ∀ rules, openRules [] (es ++ [e]) = some rules → rules.length ≤ n) :
    NestsWithin n (es ++ [e]) := by
  intro past rules hpast hrules
  rcases List.prefix_concat_iff.1 hpast with rfl | hpast
  · exact he rules hrules
  · exact hes past rules hpast hrules

end Event

namespace Parser

open Event TokenFeed

variable {σ : Type} [TokenFeed σ] {f : σ} {n : Nat}

/-- A parse keeps to its limit at all times. -/
theorem nestsWithin_of_steps {s : State σ} (hn : 1 ≤ n) (h : Steps (some n) (opened f) s) :
    NestsWithin n s.events := by
  induction h with
  | refl =>
    have hevents : (opened f).events = [] ++ [.commence .statementPart] := rfl
    rw [hevents]
    refine nestsWithin_concat (nestsWithin_nil n) fun rules hrules => ?_
    cases hrules
    exact hn
  | @tail b c hsteps hm ih =>
    have hc : Nested (some n) c := nested_of_steps (within_some.2 hn) (hsteps.tail hm)
    rcases events_of_move hm with he | ⟨e, he⟩
    · rw [he]
      exact ih
    · rw [he]
      refine nestsWithin_concat ih fun rules hrules => ?_
      rw [← he, hc.reads] at hrules
      cases hrules
      rw [State.openRules, List.length_map]
      exact within_some.1 hc.room

/-- A parse that a limit did not end is the parse without a limit. -/
theorem run_none_of_halt {s : State σ} {v : Verdict} (hsteps : Steps (some n) (opened f) s)
    (hhalt : Halt (some n) s v) (hv : ∀ m, v ≠ .rejected (.tooDeep m)) :
    run none (opened f) = (v, s) :=
  run_eq_iff.2 ⟨steps_without_limit hsteps, halt_without_limit hhalt hv⟩

/-- Where a limit ends a parse, the parse without one commences one rule more than the limit
allows. -/
theorem exists_commence_of_tooDeep {s : State σ} {m : Nat} (hn : 1 ≤ n)
    (hsteps : Steps (some n) (opened f) s) (hhalt : Halt (some n) s (.rejected (.tooDeep m))) :
    m = n ∧ s.openRules.length = n ∧
      ∃ r rest, (parseWithin none f).events = s.events ++ .commence r :: rest := by
  have hs : Nested (some n) s := nested_of_steps (within_some.2 hn) hsteps
  cases hhalt with
  | @tooDeep t feed r r' is outer past _ bound full =>
    cases bound
    have hroom : outer.length + 1 ≤ n := within_some.1 hs.room
    refine ⟨rfl, ?_, r', ?_⟩
    · simp only [State.openRules, List.length_map, List.length_cons]
      omega
    · -- without a limit the rule is commenced, and nothing that is told is taken back
      have hm : Move none ⟨t, feed, ⟨r, .call r' :: is⟩ :: outer, past⟩
          ⟨t, feed, ⟨r', plan r'⟩ :: ⟨r, is⟩ :: outer, .commence r' :: past⟩ :=
        .call (within_none _)
      have hdeeper := (steps_without_limit hsteps).tail hm
      obtain ⟨rest, hrest⟩ := events_prefix_of_steps
        (steps_run none ⟨t, feed, ⟨r', plan r'⟩ :: ⟨r, is⟩ :: outer, .commence r' :: past⟩)
      refine ⟨rest, ?_⟩
      rw [parseWithin_eq (within_none 1), run_of_steps hdeeper]
      refine hrest.symm.trans ?_
      simp [State.events]

/-- **The limit only truncates.** If a parse without a limit never has more than 1024 rules open,
the parse with the limit is the same. Otherwise it tells the same events up to the first rule that
would be the 1025th open one, and fails there, at the token behind the accepted ones. -/
theorem limit_only_truncates (ts : List Token) :
    let limited := parse (TokenQueue.ofList ts)
    let unlimited := parseWithin none (TokenQueue.ofList ts)
    let next := ts.getD (terminals limited.events).length (.eof (endLine ts))
    (NestsWithin 1024 unlimited.events ∧ limited = unlimited) ∨
      (¬ NestsWithin 1024 unlimited.events ∧ NestsWithin 1024 limited.events ∧
        (∃ r rest, unlimited.events = limited.events ++ .commence r :: rest) ∧
        (∃ rules, openRules [] limited.events = some rules ∧ rules.length = 1024) ∧
        limited.error = some ⟨next.line, "at most 1024 nested rules", next.kind⟩) := by
  intro limited unlimited next
  obtain ⟨v, s, hsteps, hhalt, hp⟩ := exists_steps_halt (TokenQueue.ofList ts)
  have hlimited : limited = conclude (v, s) := hp
  have hwithin : NestsWithin maxDepth s.events := nestsWithin_of_steps (by decide) hsteps
  by_cases hv : ∃ m, v = .rejected (.tooDeep m)
  · obtain ⟨m, rfl⟩ := hv
    obtain ⟨rfl, hfull, r, rest, hrest⟩ := exists_commence_of_tooDeep (by decide) hsteps hhalt
    have hreads := (nested_of_steps (within_some.2 (by decide)) hsteps).reads
    refine .inr ⟨fun hunlimited => ?_, ?_, ⟨r, rest, ?_⟩, ⟨s.openRules, ?_, hfull⟩, ?_⟩
    · -- behind that rule, one rule more is open than the limit allows
      have hpast : s.events ++ [.commence r] <+: unlimited.events :=
        ⟨rest, by rw [hrest, List.append_assoc]; rfl⟩
      have hopen : openRules [] (s.events ++ [.commence r]) = some (r :: s.openRules) := by
        rw [openRules_append, hreads]
        rfl
      have hle := hunlimited _ _ hpast hopen
      rw [List.length_cons, hfull] at hle
      exact Nat.not_succ_le_self _ hle
    · rw [hlimited]; exact hwithin
    · rw [hlimited]; exact hrest
    · rw [hlimited]; exact hreads
    · have hon : s.On (TokenQueue.ofList ts) := on_of_steps hsteps (on_opened _)
      have hnext : next = s.lookahead := by
        rw [hon.lookahead, TokenQueue.handsOut_ofList]
        simp only [next, hlimited]
        rfl
      rw [hlimited, hnext]
      rfl
  · have hsame := run_none_of_halt hsteps hhalt fun m hm => hv ⟨m, hm⟩
    have heq : limited = unlimited := by
      rw [hlimited]
      simp only [unlimited]
      rw [parseWithin_eq (within_none 1), hsame]
    refine .inl ⟨?_, heq⟩
    rw [← heq, hlimited]
    exact hwithin

end Parser
end StatementLang
