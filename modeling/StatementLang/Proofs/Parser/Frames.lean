import StatementLang.Proofs.Grammar.Stages
import StatementLang.Proofs.Parser.Growth
/-!
# What the open frames wait for

Each open frame is at a stage of its plan, and all but the innermost are behind a call (`Staged`).
So once the innermost frame does not call a rule whatever comes, no frame does (`Staged.settled`),
and while the parser looks at a token that is in no program this stays so: it takes nothing and
calls nothing, it only picks and finishes until it halts (`kept_of_steps`).
-/
namespace StatementLang.Parser

open Item

variable {σ : Type} {limit : Option Nat}

/-! ## Stages of the open frames -/

/-- The innermost frame is at a stage of its plan, the others are at one where a rule is called
that they wait for. -/
structure Staged (frames : List Frame) : Prop where
  top : ∀ f ∈ frames.head?, f.todo ∈ stages f.rule
  waiting : ∀ f ∈ frames.tail, ∃ r, call r :: f.todo ∈ stages f.rule

/-- With a token next that is in no program, no frame calls a rule before anything else. -/
def Settled (frames : List Frame) : Prop := ∀ f ∈ frames, goesDeeper f.todo = false

theorem Staged.settled {f : Frame} {outer : List Frame} (h : Staged (f :: outer))
    (hf : goesDeeper f.todo = false) : Settled (f :: outer) := by
  refine List.forall_mem_cons.2 ⟨hf, fun g hg => Bool.eq_false_iff.2 fun hd => ?_⟩
  obtain ⟨r, hr⟩ := h.waiting g hg
  cases isTake_of_goesDeeper hr hd

variable [TokenFeed σ] {f : σ}

theorem staged_of_move (s s' : State σ) (hs : Staged s.frames) (h : Move limit s s') :
    Staged s'.frames := by
  obtain ⟨top, waiting⟩ := hs
  cases h with
  | @finish t feed r outer past =>
    refine ⟨fun f hf => ?_, fun f hf => waiting f (List.mem_of_mem_tail hf)⟩
    obtain ⟨r', hr'⟩ := waiting f (List.mem_of_mem_head? hf)
    exact mem_stages_of_leftAfter hr' (List.mem_singleton_self _)
  | @take t feed r ts is outer past fit =>
    have htop : take ts :: is ∈ stages r := top ⟨r, take ts :: is⟩ rfl
    refine ⟨fun f hf => ?_, waiting⟩
    cases hf
    exact mem_stages_of_leftAfter htop (List.mem_singleton_self _)
  | @call t feed r r' is outer past room =>
    have htop : call r' :: is ∈ stages r := top ⟨r, call r' :: is⟩ rfl
    refine ⟨fun f hf => ?_, List.forall_mem_cons.2 ⟨⟨r', htop⟩, waiting⟩⟩
    cases hf
    exact plan_mem_stages r'
  | @choose t feed r c is js outer past pick =>
    have htop : choose c :: is ∈ stages r := top ⟨r, choose c :: is⟩ rfl
    refine ⟨fun f hf => ?_, waiting⟩
    cases hf
    exact mem_stages_of_leftAfter htop (List.mem_map_of_mem (mem_ways_of_pick pick))

theorem staged_opened (f : σ) : Staged (opened f).frames := by
  refine ⟨fun g hg => ?_, by simp [opened, State.commence, start]⟩
  cases hg
  exact plan_mem_stages .statementPart

theorem staged_of_steps {s : State σ} (h : Steps limit (opened f) s) : Staged s.frames :=
  of_steps (P := fun s => Staged s.frames) staged_of_move h (staged_opened f)

/-- An innermost frame in the middle of its plan has done its last item with this move, or waited
for a rule that finished. -/
theorem exists_stage_before {s s' : State σ} {r : Rule} {todo : List Item} {outer : List Frame}
    (hs : Staged s.frames) (h : Move limit s s') (hs' : s'.frames = ⟨r, todo⟩ :: outer)
    (hplan : todo ≠ plan r) :
    ∃ before ∈ stages r, todo ∈ leftAfter before ∧
      (s.frames = ⟨r, before⟩ :: outer ∨ ∃ r', before = call r' :: todo) := by
  cases h with
  | @finish t feed r₀ outer₀ past =>
    obtain rfl : outer₀ = ⟨r, todo⟩ :: outer := hs'
    obtain ⟨r', hr'⟩ := hs.waiting _ List.mem_cons_self
    exact ⟨_, hr', List.mem_singleton_self _, .inr ⟨r', rfl⟩⟩
  | take =>
    cases hs'
    exact ⟨_, hs.top _ rfl, List.mem_singleton_self _, .inl rfl⟩
  | call =>
    cases hs'
    exact absurd rfl hplan
  | choose pick =>
    cases hs'
    exact ⟨_, hs.top _ rfl, List.mem_map_of_mem (mem_ways_of_pick pick), .inl rfl⟩

/-! ## At a token that is in no program -/

/-- What is taken may be in a program. -/
theorem isTerminal_of_fit {t : Token} {feed : σ} {r : Rule} {ts : Terminals} {is : List Item}
    {outer : List Frame} {past : List Event} (h1 : Within limit 1)
    (hs : Steps limit (opened f) ⟨t, feed, ⟨r, take ts :: is⟩ :: outer, past⟩)
    (fit : t.kind ∈ ts.kinds) : t.kind.isTerminal = true := by
  refine isTerminal_of_accepted h1 (hs.tail (.take fit)) t ?_
  simp [State.accepted, State.events, Event.terminals]

/-- From `s` to `s'` no token is taken, and no rule is called once the frames are settled. -/
structure Kept (s s' : State σ) : Prop where
  lookahead : s'.lookahead = s.lookahead
  accepted : s'.accepted = s.accepted
  settled : Settled s.frames → Settled s'.frames

theorem kept_of_move {s s' : State σ} (h1 : Within limit 1) (hs : Steps limit (opened f) s)
    (hk : s.lookahead.kind.isTerminal = false) (h : Move limit s s') : Kept s s' := by
  have hstaged : Staged s.frames := staged_of_steps hs
  cases h with
  | finish => exact ⟨rfl, accepted_cons rfl, fun hset => (List.forall_mem_cons.1 hset).2⟩
  | take fit => exact absurd (isTerminal_of_fit h1 hs fit) (Bool.eq_false_iff.1 hk)
  | call =>
    refine ⟨rfl, accepted_cons rfl, fun hset => ?_⟩
    cases (List.forall_mem_cons.1 hset).1
  | @choose t feed r c is js outer past pick =>
    refine ⟨rfl, rfl, fun hset => ?_⟩
    obtain ⟨htop, houter⟩ := List.forall_mem_cons.1 hset
    have hc : c ≠ .assignedValue := by rintro rfl; cases htop
    have hstage : choose c :: is ∈ stages r := hstaged.top ⟨r, choose c :: is⟩ rfl
    exact List.forall_mem_cons.2 ⟨goesDeeper_of_pick hstage hk hc pick, houter⟩

theorem kept_of_steps {s s' : State σ} (h1 : Within limit 1) (hs : Steps limit (opened f) s)
    (hk : s.lookahead.kind.isTerminal = false) (h : Steps limit s s') : Kept s s' := by
  induction h with
  | refl => exact ⟨rfl, rfl, id⟩
  | @tail a b ha hm ih =>
    have hab : Kept a b := kept_of_move h1 (hs.trans ha) (ih.lookahead ▸ hk) hm
    exact ⟨hab.lookahead.trans ih.lookahead, hab.accepted.trans ih.accepted,
      fun hset => hab.settled (ih.settled hset)⟩

end StatementLang.Parser
