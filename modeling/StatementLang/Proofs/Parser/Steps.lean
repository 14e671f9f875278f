import Mathlib.Logic.Relation
import StatementLang.Parser
/-!
# Steps of the parser

`Move` says all that one step of the parser can do, one constructor for each kind of item, and
`Halt` says how a parse ends. A run is a chain of moves that ends in a halt (`run_eq_iff`), so what
every move keeps holds of every run (`of_steps`). The theory of the parser is built on these
and does not open `step` or `run` again.
-/
namespace StatementLang.Parser

variable {σ : Type}

/-- `n` rules may be open at once. -/
def Within (limit : Option Nat) (n : Nat) : Prop := ∀ m ∈ limit, n ≤ m

theorem Within.mono {limit : Option Nat} {m n : Nat} (h : Within limit n) (hmn : m ≤ n) :
    Within limit m := fun k hk => Nat.le_trans hmn (h k hk)

@[simp] theorem within_none (n : Nat) : Within none n := by simp [Within]

@[simp] theorem within_some {m n : Nat} : Within (some m) n ↔ n ≤ m := by simp [Within]

theorem enter_of_within {limit : Option Nat} {r : Rule} {s : State σ}
    (h : Within limit (s.frames.length + 1)) : enter limit r s = .inr (s.commence r) := by
  cases limit with
  | none => rfl
  | some n =>
    have hlt : s.frames.length < n := within_some.1 h
    simp [enter, hlt]

theorem enter_of_not_within {n : Nat} {r : Rule} {s : State σ} (h : n ≤ s.frames.length) :
    enter (some n) r s = .inl (.rejected (.tooDeep n)) := by
  simp [enter, Nat.not_lt.2 h]

variable [TokenFeed σ]

/-! ## Moves and halts -/

/-- A step that does not end the parse. -/
inductive Move (limit : Option Nat) : State σ → State σ → Prop
  | finish {t : Token} {feed : σ} {r : Rule} {outer : List Frame} {past : List Event} :
      Move limit ⟨t, feed, ⟨r, []⟩ :: outer, past⟩ ⟨t, feed, outer, .finish r :: past⟩
  | take {t : Token} {feed : σ} {r : Rule} {ts : Terminals} {is : List Item}
      {outer : List Frame} {past : List Event} (fit : t.kind ∈ ts.kinds) :
      Move limit ⟨t, feed, ⟨r, .take ts :: is⟩ :: outer, past⟩
        ⟨(TokenFeed.pull feed).1, (TokenFeed.pull feed).2, ⟨r, is⟩ :: outer, .terminal t :: past⟩
  | call {t : Token} {feed : σ} {r r' : Rule} {is : List Item} {outer : List Frame}
      {past : List Event} (room : Within limit (outer.length + 2)) :
      Move limit ⟨t, feed, ⟨r, .call r' :: is⟩ :: outer, past⟩
        ⟨t, feed, ⟨r', plan r'⟩ :: ⟨r, is⟩ :: outer, .commence r' :: past⟩
  | choose {t : Token} {feed : σ} {r : Rule} {c : Choice} {is js : List Item}
      {outer : List Frame} {past : List Event} (pick : c.pick t.kind = some js) :
      Move limit ⟨t, feed, ⟨r, .choose c :: is⟩ :: outer, past⟩
        ⟨t, feed, ⟨r, js ++ is⟩ :: outer, past⟩

/-- The verdict on a state from which there is no move. -/
inductive Halt (limit : Option Nat) : State σ → Verdict → Prop
  | accepted {t : Token} {feed : σ} {past : List Event} : Halt limit ⟨t, feed, [], past⟩ .accepted
  | unfit {t : Token} {feed : σ} {r : Rule} {ts : Terminals} {is : List Item}
      {outer : List Frame} {past : List Event} (unfit : t.kind ∉ ts.kinds) :
      Halt limit ⟨t, feed, ⟨r, .take ts :: is⟩ :: outer, past⟩ (.rejected (.mismatch r))
  | noWay {t : Token} {feed : σ} {r : Rule} {c : Choice} {is : List Item}
      {outer : List Frame} {past : List Event} (pick : c.pick t.kind = none) :
      Halt limit ⟨t, feed, ⟨r, .choose c :: is⟩ :: outer, past⟩ (.rejected (.mismatch r))
  | tooDeep {t : Token} {feed : σ} {r r' : Rule} {is : List Item} {outer : List Frame}
      {past : List Event} {n : Nat} (bound : limit = some n) (full : n ≤ outer.length + 1) :
      Halt limit ⟨t, feed, ⟨r, .call r' :: is⟩ :: outer, past⟩ (.rejected (.tooDeep n))

variable {limit : Option Nat} {s s' a : State σ} {v : Verdict}

theorem step_of_move (h : Move limit s s') : step limit s = .inr s' := by
  cases h with
  | finish => rfl
  | take fit => simp [step, fit, State.shift]
  | call room => exact enter_of_within room
  | choose pick => simp [step, pick]

theorem step_of_halt (h : Halt limit s v) : step limit s = .inl v := by
  cases h with
  | accepted => rfl
  | unfit unfit => simp [step, unfit]
  | noWay pick => simp [step, pick]
  | tooDeep bound full =>
    subst bound
    exact enter_of_not_within full

/-- There is a move from every state, or a verdict on it. -/
theorem move_or_halt (limit : Option Nat) (s : State σ) :
    (∃ s', Move limit s s') ∨ ∃ v, Halt limit s v := by
  obtain ⟨t, feed, frames, past⟩ := s
  match frames with
  | [] => exact .inr ⟨_, .accepted⟩
  | ⟨r, []⟩ :: outer => exact .inl ⟨_, .finish⟩
  | ⟨r, .take ts :: is⟩ :: outer =>
    by_cases fit : t.kind ∈ ts.kinds
    · exact .inl ⟨_, .take fit⟩
    · exact .inr ⟨_, .unfit fit⟩
  | ⟨r, .call r' :: is⟩ :: outer =>
    cases limit with
    | none => exact .inl ⟨_, .call (within_none _)⟩
    | some n =>
      by_cases full : n ≤ outer.length + 1
      · exact .inr ⟨_, .tooDeep rfl full⟩
      · exact .inl ⟨_, .call (within_some.2 (by omega))⟩
  | ⟨r, .choose c :: is⟩ :: outer =>
    cases pick : c.pick t.kind with
    | none => exact .inr ⟨_, .noWay pick⟩
    | some js => exact .inl ⟨_, .choose pick⟩

theorem step_eq_inr_iff : step limit s = .inr s' ↔ Move limit s s' := by
  refine ⟨fun h => ?_, step_of_move⟩
  rcases move_or_halt limit s with ⟨a, ha⟩ | ⟨v, hv⟩
  · rw [step_of_move ha] at h
    cases h
    exact ha
  · rw [step_of_halt hv] at h
    cases h

theorem step_eq_inl_iff : step limit s = .inl v ↔ Halt limit s v := by
  refine ⟨fun h => ?_, step_of_halt⟩
  rcases move_or_halt limit s with ⟨a, ha⟩ | ⟨w, hw⟩
  · rw [step_of_move ha] at h
    cases h
  · rw [step_of_halt hw] at h
    cases h
    exact hw

/-! ## Runs -/

/-- Some moves, one after the other. -/
abbrev Steps (limit : Option Nat) : State σ → State σ → Prop :=
  Relation.ReflTransGen (Move limit)

theorem steps_run (limit : Option Nat) (s : State σ) : Steps limit s (run limit s).2 := by
  fun_induction run limit s with
  | case1 s v h => exact .refl
  | case2 s s' h _ ih => exact .head (step_eq_inr_iff.1 h) ih

theorem halt_run (limit : Option Nat) (s : State σ) :
    Halt limit (run limit s).2 (run limit s).1 := by
  fun_induction run limit s with
  | case1 s v h => exact step_eq_inl_iff.1 h
  | case2 s s' h _ ih => exact ih

theorem run_of_steps (h : Steps limit s a) : run limit s = run limit a := by
  induction h with
  | refl => rfl
  | tail _ hm ih => rw [ih, run_of_step (step_of_move hm)]

/-- A run is a chain of moves that ends in a halt. -/
theorem run_eq_iff : run limit s = (v, a) ↔ Steps limit s a ∧ Halt limit a v := by
  constructor
  · intro h
    have hs := steps_run limit s
    have hv := halt_run limit s
    rw [h] at hs hv
    exact ⟨hs, hv⟩
  · rintro ⟨hs, hv⟩
    rw [run_of_steps hs, run_of_verdict (step_of_halt hv)]

/-- Moves lead to one halt only. -/
theorem halt_unique {b : State σ} {w : Verdict} (ha : Steps limit s a) (hv : Halt limit a v)
    (hb : Steps limit s b) (hw : Halt limit b w) : v = w ∧ a = b := by
  have heq := (run_eq_iff.2 ⟨ha, hv⟩).symm.trans (run_eq_iff.2 ⟨hb, hw⟩)
  exact Prod.mk.inj heq

/-- All moves are on the way to the halt. -/
theorem steps_of_halt {b : State σ} (hb : Steps limit s b) (ha : Steps limit s a)
    (hv : Halt limit a v) : Steps limit b a :=
  (run_eq_iff.1 ((run_of_steps hb).symm.trans (run_eq_iff.2 ⟨ha, hv⟩))).1

/-- The run from `s`, if it ends within so many steps. -/
def runFor (limit : Option Nat) : Nat → State σ → Option (Verdict × State σ)
  | 0, _ => none
  | n + 1, s =>
    match step limit s with
    | .inl v => some (v, s)
    | .inr s' => runFor limit n s'

theorem run_eq_of_runFor {n : Nat} {p : Verdict × State σ} (h : runFor limit n s = some p) :
    run limit s = p := by
  induction n generalizing s with
  | zero => cases h
  | succ n ih =>
    rw [runFor] at h
    split at h
    · rename_i v hv
      rw [run_of_verdict hv]
      exact Option.some.inj h
    · rename_i s' hs'
      rw [run_of_step hs']
      exact ih h

/-- What every move keeps holds after any number of moves. -/
theorem of_steps {P : State σ → Prop} (keep : ∀ a b, P a → Move limit a b → P b)
    (h : Steps limit s a) (hs : P s) : P a := by
  induction h with
  | refl => exact hs
  | tail _ hm ih => exact keep _ _ ih hm

/-! ## Whole parses -/

/-- The state in which the statement part has been opened. -/
def opened (feed : σ) : State σ := (start feed).commence .statementPart

theorem parseWithin_eq (h : Within limit 1) (feed : σ) :
    parseWithin limit feed = conclude (run limit (opened feed)) := by
  have he : enter limit .statementPart (start feed) = .inr (opened feed) := enter_of_within h
  simp [parseWithin, he]

theorem parse_eq (feed : σ) : parse feed = conclude (run (some maxDepth) (opened feed)) :=
  parseWithin_eq (within_some.2 (by decide)) feed

theorem parse_eq_of_runFor {feed : σ} {n : Nat} {p : Verdict × State σ}
    (h : runFor (some maxDepth) n (opened feed) = some p) : parse feed = conclude p := by
  rw [parse_eq, run_eq_of_runFor h]

/-- How a parse went: some moves, and the halt that ended it. -/
theorem exists_steps_halt (feed : σ) :
    ∃ (v : Verdict) (s : State σ), Steps (some maxDepth) (opened feed) s ∧
      Halt (some maxDepth) s v ∧ parse feed = conclude (v, s) :=
  ⟨_, _, steps_run _ _, halt_run _ _, parse_eq feed⟩

omit [TokenFeed σ] in
theorem error_eq_none_iff {p : Parse σ} : p.error = none ↔ p.verdict = .accepted := by
  cases h : p.verdict <;> simp [Parse.error, h]

omit [TokenFeed σ] in
/-- An error says what its fault expects, about the token looked at last. -/
theorem exists_fault_of_error {p : Parse σ} {e : SyntaxError} (h : p.error = some e) :
    ∃ fault, p.verdict = .rejected fault ∧ e = .ofToken p.lookahead fault.expected := by
  cases hv : p.verdict with
  | accepted => rw [Parse.error, hv] at h; cases h
  | rejected fault => rw [Parse.error, hv] at h; cases h; exact ⟨fault, rfl, rfl⟩

end StatementLang.Parser
