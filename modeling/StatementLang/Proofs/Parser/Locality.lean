import StatementLang.Proofs.Parser.Reading
/-!
# What a parse depends on

A move looks at the kind of the lookahead and at nothing else of a feed, so the parses of two feeds
go alike as long as the tokens are of the same kinds (`steps_of_alike`, `halt_of_alike`). And
a limit only stops the move that would exceed it: up to there a parse goes as it would without
one (`steps_without_limit`, `halt_without_limit`).
-/
namespace StatementLang

/-! ## Events without lines and lexemes -/

namespace Event

/-- An event with the kind of its token only. -/
def outline : Event → Event
  | commence r => commence r
  | terminal t => terminal ⟨t.kind, 1, none⟩
  | finish r => finish r

theorem terminals_map_outline (es : List Event) :
    (terminals (es.map outline)).map Token.kind = (terminals es).map Token.kind := by
  induction es with
  | nil => rfl
  | cons e es ih => cases e <;> simpa [terminals, outline] using ih

/-- An outline and the terminals are enough to tell the events. -/
theorem eq_of_outline_eq {es fs : List Event} (ho : es.map outline = fs.map outline)
    (ht : terminals es = terminals fs) : es = fs := by
  induction es generalizing fs with
  | nil => exact (List.map_eq_nil_iff.1 ho.symm).symm
  | cons e es ih =>
    obtain ⟨f, fs, rfl⟩ := List.exists_cons_of_ne_nil (l := fs) (by rintro rfl; cases ho)
    simp only [List.map_cons, List.cons.injEq] at ho
    obtain ⟨hef, hes⟩ := ho
    cases e <;> cases f <;> simp only [outline, reduceCtorEq, commence.injEq, finish.injEq] at hef
    case cons.commence.commence => rw [hef, ih hes ht]
    case cons.terminal.terminal =>
      obtain ⟨htoken, ht⟩ := List.cons.inj ht
      rw [htoken, ih hes ht]
    case cons.finish.finish => rw [hef, ih hes ht]

end Event

namespace Parser

open TokenFeed

variable {σ τ : Type} {limit : Option Nat} {v : Verdict}

/-! ## Alike parses -/

/-- Two parses, perhaps of different feeds, that have gone the same way so far. -/
structure Alike (s : State σ) (s' : State τ) : Prop where
  frames : s'.frames = s.frames
  events : s'.events.map Event.outline = s.events.map Event.outline

theorem Alike.pos {s : State σ} {s' : State τ} (h : Alike s s') : s'.pos = s.pos := by
  have hkinds : s'.accepted.map Token.kind = s.accepted.map Token.kind := by
    rw [State.accepted, State.accepted, ← Event.terminals_map_outline, h.events,
      Event.terminals_map_outline]
  have hlength := congrArg List.length hkinds
  rwa [List.length_map, List.length_map] at hlength

/-- Alike parses that have accepted the same tokens have told the same. -/
theorem Alike.events_eq {s : State σ} {s' : State τ} (h : Alike s s')
    (ha : s'.accepted = s.accepted) : s'.events = s.events :=
  Event.eq_of_outline_eq h.events ha

/-- Parses that are alike and tell the same are alike. -/
theorem Alike.tell {s : State σ} {s' : State τ} (h : Alike s s') {e e' : Event}
    (he : e'.outline = e.outline) {t t' : Token} {feed : σ} {feed' : τ} {frames : List Frame} :
    Alike ⟨t, feed, frames, e :: s.past⟩ ⟨t', feed', frames, e' :: s'.past⟩ := by
  have hevents := h.events
  simp only [State.events] at hevents
  refine ⟨rfl, ?_⟩
  simp only [State.events, List.reverse_cons, List.map_append, hevents, List.map_cons, he]

theorem halt_of_alike {s : State σ} {s' : State τ} (h : Halt limit s v) (alike : Alike s s')
    (kind : s'.lookahead.kind = s.lookahead.kind) : Halt limit s' v := by
  obtain ⟨t', feed', frames', past'⟩ := s'
  have hk : t'.kind = s.lookahead.kind := kind
  have hfs : frames' = s.frames := alike.frames
  cases h with
  | accepted => subst hfs; exact .accepted
  | unfit unfit => subst hfs; exact .unfit (hk ▸ unfit)
  | noWay pick => subst hfs; exact .noWay (hk ▸ pick)
  | tooDeep bound full => subst hfs; exact .tooDeep bound full

variable [TokenFeed σ] [TokenFeed τ]

theorem alike_opened (f : σ) (g : τ) : Alike (opened f) (opened g) := ⟨rfl, rfl⟩

/-- A move of one of two alike parses can be made in the other, if it sees a token of that kind. -/
theorem move_of_alike {s a : State σ} {s' : State τ} (h : Move limit s a) (alike : Alike s s')
    (kind : s'.lookahead.kind = s.lookahead.kind) : ∃ a', Move limit s' a' ∧ Alike a a' := by
  obtain ⟨t', feed', frames', past'⟩ := s'
  have hk : t'.kind = s.lookahead.kind := kind
  obtain rfl : frames' = s.frames := alike.frames
  cases h with
  | finish => exact ⟨_, .finish, alike.tell rfl⟩
  | take fit => exact ⟨_, .take (hk ▸ fit), alike.tell (by rw [Event.outline, Event.outline, hk])⟩
  | call room => exact ⟨_, .call room, alike.tell rfl⟩
  | choose pick => exact ⟨_, .choose (hk ▸ pick), rfl, alike.events⟩

/-- Where the tokens of two feeds are of one kind, so are the lookaheads of alike parses. -/
theorem Alike.kind {f : σ} {g : τ} {s : State σ} {s' : State τ} (h : Alike s s') (hs : s.On f)
    (hs' : s'.On g) (agree : (get g s.pos).kind = (get f s.pos).kind) :
    s'.lookahead.kind = s.lookahead.kind := by
  rw [hs.lookahead, hs'.lookahead, h.pos, agree]

/-- One more move of one of two alike parses, where they see tokens of one kind. -/
theorem exists_steps_tail {f : σ} {g : τ} {s a : State σ} {s' : State τ}
    (h : Steps limit (opened f) s) (h' : Steps limit (opened g) s') (alike : Alike s s')
    (hm : Move limit s a) (agree : (get g s.pos).kind = (get f s.pos).kind) :
    ∃ a', Steps limit (opened g) a' ∧ Alike a a' := by
  have hkind := alike.kind (on_of_steps h (on_opened f)) (on_of_steps h' (on_opened g)) agree
  obtain ⟨a', hm', alike'⟩ := move_of_alike hm alike hkind
  exact ⟨a', h'.tail hm', alike'⟩

/-- The parse of one feed goes like that of another as far as the kinds are the same. -/
theorem steps_of_alike {f : σ} {g : τ} {s : State σ} (h : Steps limit (opened f) s)
    (agree : ∀ i ≤ s.pos, (get g i).kind = (get f i).kind) :
    ∃ s', Steps limit (opened g) s' ∧ Alike s s' := by
  induction h with
  | refl => exact ⟨opened g, .refl, alike_opened f g⟩
  | @tail b c hsteps hm ih =>
    have hle : b.pos ≤ c.pos := pos_le_of_move hm
    obtain ⟨b', hsteps', alike⟩ := ih fun i hi => agree i (Nat.le_trans hi hle)
    exact exists_steps_tail hsteps hsteps' alike hm (agree b.pos hle)

/-- It comes with it as far as to the first token of another kind. -/
theorem exists_steps_at {f : σ} {g : τ} {s : State σ} {n : Nat} (h : Steps limit (opened f) s)
    (hn : n ≤ s.pos) (agree : ∀ i < n, (get g i).kind = (get f i).kind) :
    ∃ a a', Steps limit (opened f) a ∧ Steps limit a s ∧ a.pos = n ∧
      Steps limit (opened g) a' ∧ Alike a a' := by
  induction h with
  | refl =>
    have hzero : n = 0 := Nat.le_zero.1 hn
    exact ⟨opened f, opened g, .refl, .refl, hzero.symm, .refl, alike_opened f g⟩
  | @tail b c hsteps hm ih =>
    by_cases hb : n ≤ b.pos
    · obtain ⟨a, a', ha, hab, hpos, ha', alike⟩ := ih hb
      exact ⟨a, a', ha, hab.tail hm, hpos, ha', alike⟩
    · -- the move to `c` takes the token before the `n`-th
      have hc : c.pos ≤ b.pos + 1 := pos_le_succ_of_move hm
      obtain ⟨b', hb', alike⟩ := steps_of_alike (g := g) hsteps fun i hi => agree i (by omega)
      obtain ⟨c', hc', alike'⟩ := exists_steps_tail hsteps hb' alike hm (agree b.pos (by omega))
      exact ⟨c, c', hsteps.tail hm, .refl, by omega, hc', alike'⟩

/-- And if the kinds are the same up to where it halts, the other halts there with its verdict. -/
theorem halts_of_alike {f : σ} {g : τ} {s : State σ} (h : Steps limit (opened f) s)
    (hv : Halt limit s v) (agree : ∀ i ≤ s.pos, (get g i).kind = (get f i).kind) :
    ∃ s', Steps limit (opened g) s' ∧ Halt limit s' v ∧ Alike s s' := by
  obtain ⟨s', h', alike⟩ := steps_of_alike h agree
  have hkind := alike.kind (on_of_steps h (on_opened f)) (on_of_steps h' (on_opened g))
    (agree s.pos (Nat.le_refl _))
  exact ⟨s', h', halt_of_alike hv alike hkind, alike⟩

/-! ## Parses without a limit -/

theorem move_without_limit {s s' : State σ} (h : Move limit s s') : Move none s s' := by
  cases h with
  | finish => exact .finish
  | take fit => exact .take fit
  | call => exact .call (within_none _)
  | choose pick => exact .choose pick

theorem steps_without_limit {s s' : State σ} (h : Steps limit s s') : Steps none s s' :=
  Relation.ReflTransGen.mono (fun _ _ => move_without_limit) _ _ h

omit [TokenFeed σ] in
theorem halt_without_limit {s : State σ} (h : Halt limit s v)
    (hv : ∀ n, v ≠ .rejected (.tooDeep n)) : Halt none s v := by
  cases h with
  | accepted => exact .accepted
  | unfit unfit => exact .unfit unfit
  | noWay pick => exact .noWay pick
  | tooDeep => exact absurd rfl (hv _)

end Parser
end StatementLang
