import StatementLang.Proofs.Parser.Steps
import StatementLang.Transcript
/-!
# Nesting of events

Reading the events of a parse with a stack of rules gives the open frames of the parser, and there
are never more of them than the limit allows (`Nested`). A halt sees the top frame only, so a parse
that fails reports once, for the innermost open rule, and one that succeeds has closed every rule
(`report_of_innermost_rule`).
-/
namespace StatementLang.Parser

variable {σ : Type}

/-- The events of a state are well nested, and what they leave open is what the parser has open. -/
structure Nested (limit : Option Nat) (s : State σ) : Prop where
  reads : Event.openRules [] s.events = some s.openRules
  room : Within limit s.frames.length

/-- One more event is read with the rules that are open. -/
theorem openRules_cons_past {past : List Event} {rs : List Rule}
    (h : Event.openRules [] past.reverse = some rs) (e : Event) :
    Event.openRules [] (e :: past).reverse = Event.openRules rs [e] := by
  rw [List.reverse_cons, Event.openRules_append, h, Option.bind_some]

variable {limit : Option Nat}

/-- A rejection is about the innermost open rule, or about the number of open rules. -/
theorem openRules_of_rejected {s : State σ} {f : ParseFault} (h : Halt limit s (.rejected f))
    (hs : Nested limit s) :
    (∃ r outer, f = .mismatch r ∧ s.openRules = r :: outer) ∨
      ∃ n, limit = some n ∧ f = .tooDeep n ∧ s.openRules.length = n := by
  cases h with
  | unfit => exact .inl ⟨_, _, rfl, rfl⟩
  | noWay => exact .inl ⟨_, _, rfl, rfl⟩
  | @tooDeep _ _ _ _ _ outer _ n bound full =>
    have room : outer.length + 1 ≤ n := hs.room n bound
    refine .inr ⟨n, bound, rfl, ?_⟩
    simp only [State.openRules, List.length_map, List.length_cons]
    omega

/-- A parse ends without an open rule exactly if it is accepted. -/
theorem openRules_of_accepted {s : State σ} (h : Halt limit s .accepted) : s.openRules = [] := by
  cases h; rfl

variable [TokenFeed σ]

theorem nested_opened (h : Within limit 1) (feed : σ) : Nested limit (opened feed) :=
  ⟨rfl, h⟩

theorem nested_of_move (s s' : State σ) (hs : Nested limit s) (h : Move limit s s') :
    Nested limit s' := by
  obtain ⟨reads, room⟩ := hs
  cases h with
  | finish =>
    refine ⟨(openRules_cons_past reads _).trans ?_, room.mono (Nat.le_succ _)⟩
    simp [State.openRules, Event.openRules]
  | take => exact ⟨openRules_cons_past reads _, room⟩
  | call more => exact ⟨openRules_cons_past reads _, more⟩
  | choose => exact ⟨reads, room⟩

theorem nested_of_steps {feed : σ} {s : State σ} (h1 : Within limit 1)
    (h : Steps limit (opened feed) s) : Nested limit s :=
  of_steps nested_of_move h (nested_opened h1 feed)

/-- The events of a parse are well nested. -/
theorem exists_openRules (feed : σ) : ∃ rs, Event.openRules [] (parse feed).events = some rs := by
  obtain ⟨v, s, hsteps, -, hp⟩ := exists_steps_halt feed
  rw [hp]
  exact ⟨s.openRules, (nested_of_steps (within_some.2 (by decide)) hsteps).reads⟩

/-- **One report, by the innermost open rule.** A parse appends well nested events to a transcript.
If it succeeds they leave no rule open and nothing is reported. If it fails it reports once, after
its last event: what the innermost open rule expects, or that rules nest too deep, and then as many
rules are open as may be. -/
theorem report_of_innermost_rule (ts : List Token) (log : Transcript) :
    let p := parse (TokenQueue.ofList ts)
    let after := p.notices.foldl Transcript.hear log
    ∃ (es : List Event) (stack : List Rule),
      after.events = log.events ++ es ∧ Event.openRules [] es = some stack ∧
      ((p.error = none ∧ p.notices = es.map .event ∧ after.reported = log.reported ∧
          stack = []) ∨
        ∃ (e : SyntaxError) (t : Token),
          p.error = some e ∧ p.notices = es.map .event ++ [.report t e.expected] ∧
          (Notice.report t e.expected).error? = some e ∧
          after.reported = log.reported + 1 ∧ stack ≠ [] ∧
          (stack.head?.map Rule.expected = some e.expected ∨
            e.expected = "at most 1024 nested rules" ∧ stack.length = 1024)) := by
  intro p after
  obtain ⟨v, s, hsteps, hhalt, hp⟩ := exists_steps_halt (TokenQueue.ofList ts)
  have hp : p = conclude (v, s) := hp
  have hafter : after = log.append p := (Transcript.append_eq_foldl_hear log p).symm
  have hs := nested_of_steps (within_some.2 (by decide)) hsteps
  refine ⟨s.events, s.openRules, ?_, hs.reads, ?_⟩
  · rw [hafter, hp]; rfl
  rw [hafter, hp]
  cases v with
  | accepted =>
    exact .inl ⟨rfl, List.append_nil _, rfl, openRules_of_accepted hhalt⟩
  | rejected f =>
    refine .inr ⟨_, s.lookahead, rfl, rfl, rfl, rfl, ?_⟩
    rcases openRules_of_rejected hhalt hs with ⟨r, outer, rfl, hopen⟩ | ⟨n, hn, rfl, hlen⟩
    · rw [hopen]
      exact ⟨List.cons_ne_nil r outer, .inl rfl⟩
    · cases hn
      refine ⟨?_, .inr ⟨rfl, hlen⟩⟩
      intro hnil
      rw [hnil] at hlen
      cases hlen

end StatementLang.Parser
