import StatementLang.Proofs.Grammar.Plans
import StatementLang.Proofs.Parser.Reading
/-!
# Growth of derivation trees

The events of a parse spell a derivation tree as far as it has grown. Each open frame has the trees
of the symbols it is through with, and whatever its remaining items spell completes them to a
right-hand side (`Begun`, `Grown`). Every move keeps that, so an accepted parse has told a whole
program (`exists_program_of_accepted`), and at every other moment the accepted tokens can still be
completed to one (`exists_program_of_growing`).
-/
namespace StatementLang.Parser

open ParseTree

/-! ## Nodes under way -/

/-- The trees `cs` begin a node of `r`, and doing `todo` would complete it. -/
structure Begun (r : Rule) (todo : List Item) (cs : List ParseTree) : Prop where
  derives : ∀ c ∈ cs, c.Derives
  spells : ∀ xs, Spells todo xs → Production r (cs.map symbol ++ xs)

section
variable {r r' : Rule} {ts : Terminals} {c : Choice} {is js : List Item} {cs : List ParseTree}

theorem begun_plan (r : Rule) : Begun r (plan r) [] :=
  ⟨by simp, fun _ h => production_of_spells h⟩

theorem Begun.concat {todo : List Item} {t : ParseTree} (h : Begun r todo cs) (ht : t.Derives)
    (his : ∀ xs, Spells is xs → Spells todo (t.symbol :: xs)) : Begun r is (cs ++ [t]) := by
  refine ⟨fun d hd => ?_, fun xs hxs => ?_⟩
  · rcases List.mem_append.1 hd with hd | hd
    · exact h.derives d hd
    · rw [List.mem_singleton.1 hd]; exact ht
  · rw [List.map_append, List.append_assoc]
    exact h.spells _ (his xs hxs)

theorem Begun.take {t : Token} (h : Begun r (.take ts :: is) cs) (fit : t.kind ∈ ts.kinds) :
    Begun r is (cs ++ [leaf t]) :=
  h.concat (.leaf t) fun _ hxs => .take fit hxs

theorem Begun.answer {t : ParseTree} (h : Begun r (.call r' :: is) cs) (ht : t.Derives)
    (hr : t.symbol = .rule r') : Begun r is (cs ++ [t]) :=
  h.concat ht fun _ hxs => hr ▸ .call hxs

theorem Begun.choose (h : Begun r (.choose c :: is) cs) (way : js ∈ c.ways) :
    Begun r (js ++ is) cs :=
  ⟨h.derives, fun _ hxs => h.spells _ (.choose way hxs)⟩

theorem Begun.node (h : Begun r [] cs) : (node r cs).Derives := by
  have hp := h.spells [] .nil
  rw [List.append_nil] at hp
  exact .node hp h.derives

/-- Every node under way can be completed. -/
theorem Begun.completes {todo : List Item} (h : Begun r todo cs) :
    ∃ ds, (ParseTree.node r (cs ++ ds)).Derives := by
  obtain ⟨xs, hxs⟩ := exists_spells todo
  obtain ⟨ds, hds, rfl⟩ := exists_row fun x (_ : x ∈ xs) => hasTree x
  refine ⟨ds, .node ?_ fun d hd => ?_⟩
  · rw [List.map_append]
    exact h.spells _ hxs
  · exact (List.mem_append.1 hd).elim (h.derives d) (hds d)

end

/-! ## Frames under way -/

/-- What open frames have told. `due` is the rule that the innermost of them has called, if it
waits for one. -/
inductive Grown (limit : Option Nat) : Option Rule → List Frame → List Event → Prop
  | root : Grown limit (some .statementPart) [] []
  | frame {due : Option Rule} {r : Rule} {todo : List Item} {outer : List Frame}
      {es : List Event} {cs : List ParseTree} (outside : Grown limit (some r) outer es)
      (begun : Begun r (due.toList.map .call ++ todo) cs)
      (room : Within limit (outer.length + 1 + heightAll cs)) :
      Grown limit due (⟨r, todo⟩ :: outer) (es ++ .commence r :: eventsAll cs)

variable {limit : Option Nat}

theorem grown_frame_iff {due : Option Rule} {r : Rule} {todo : List Item} {outer : List Frame}
    {es : List Event} :
    Grown limit due (⟨r, todo⟩ :: outer) es ↔
      ∃ es₀ cs, es = es₀ ++ .commence r :: eventsAll cs ∧ Grown limit (some r) outer es₀ ∧
        Begun r (due.toList.map .call ++ todo) cs ∧
        Within limit (outer.length + 1 + heightAll cs) := by
  constructor
  · intro h
    cases h with
    | frame outside begun room => exact ⟨_, _, rfl, outside, begun, room⟩
  · rintro ⟨es₀, cs, rfl, outside, begun, room⟩
    exact .frame outside begun room

/-- A rule that has been called is answered by a tree. The statement part is called by no frame. -/
theorem grown_answer {r : Rule} {outer : List Frame} {es : List Event} {t : ParseTree}
    (h : Grown limit (some r) outer es) (ht : t.Derives) (hr : t.symbol = .rule r)
    (room : Within limit (outer.length + t.height)) :
    Grown limit none outer (es ++ t.events) ∨ outer = [] ∧ es = [] ∧ r = .statementPart := by
  cases h with
  | root => exact .inr ⟨rfl, rfl, rfl⟩
  | @frame _ r₀ todo outer es cs outside begun room' =>
    have hb : Begun r₀ todo (cs ++ [t]) := begun.answer ht hr
    have hw : Within limit (outer.length + 1 + heightAll (cs ++ [t])) := by
      intro m hm
      have h1 : outer.length + 1 + heightAll cs ≤ m := room' m hm
      have h2 : outer.length + 1 + t.height ≤ m := room m hm
      rw [heightAll_append, heightAll, heightAll]
      omega
    have hg : Grown limit none (⟨r₀, todo⟩ :: outer) _ := .frame outside hb hw
    rw [eventsAll_append, eventsAll, eventsAll, List.append_nil] at hg
    rw [List.append_assoc, List.cons_append]
    exact .inl hg

theorem terminals_row (r : Rule) (es : List Event) (cs : List ParseTree) :
    Event.terminals (es ++ .commence r :: eventsAll cs) = Event.terminals es ++ yieldAll cs := by
  rw [Event.terminals_append]
  exact congrArg _ (terminals_eventsAll cs)

/-- Some program begins with the terminals that have been told. -/
theorem exists_program_of_begun {r : Rule} {todo : List Item} {outer : List Frame}
    {es : List Event} {cs : List ParseTree} (outside : Grown limit (some r) outer es)
    (begun : Begun r todo cs) :
    ∃ p, IsProgram p ∧ Event.terminals es ++ yieldAll cs <+: p.yield := by
  induction outer generalizing r todo es cs with
  | nil =>
    obtain ⟨ds, hnode⟩ := begun.completes
    cases outside
    refine ⟨_, ⟨hnode, rfl⟩, ?_⟩
    rw [yield, yieldAll_append]
    exact List.prefix_append _ _
  | cons f outer ih =>
    obtain ⟨ds, hnode⟩ := begun.completes
    cases outside with
    | @frame _ r₀ todo₀ _ es₀ cs₀ outside₀ begun₀ _ =>
      -- the completed node of `r` is one more child of the frame that called `r`
      obtain ⟨p, hp, hpre⟩ := ih outside₀ (begun₀.answer hnode rfl)
      refine ⟨p, hp, List.IsPrefix.trans ?_ hpre⟩
      rw [terminals_row, yieldAll_append, yieldAll, yieldAll, yield, yieldAll_append,
        List.append_nil, ← List.append_assoc, ← List.append_assoc]
      exact List.prefix_append _ _

/-! ## States under way -/

variable {σ : Type}

/-- The events spell what has grown of a derivation tree that nests as deep as may be, or a whole
one. -/
def Growing (limit : Option Nat) (s : State σ) : Prop :=
  Grown limit none s.frames s.events ∨
    s.frames = [] ∧ ∃ t, IsProgram t ∧ Within limit t.height ∧ s.events = t.events

/-- The tokens that have been accepted begin a program. -/
theorem exists_program_of_growing {s : State σ} (h : Growing limit s) :
    ∃ p, IsProgram p ∧ s.accepted <+: p.yield := by
  rcases h with h | ⟨-, t, ht, -, he⟩
  · generalize hfs : s.frames = frames at h
    generalize hes : s.events = es at h
    cases h with
    | @frame _ r todo outer es cs outside begun _ =>
      obtain ⟨p, hp, hpre⟩ := exists_program_of_begun outside begun
      refine ⟨p, hp, ?_⟩
      rw [State.accepted, hes, terminals_row]
      exact hpre
  · have hy : s.accepted = t.yield := by rw [State.accepted, he, terminals_events]
    exact ⟨t, ht, hy ▸ List.prefix_rfl⟩

/-- Where a parse is accepted it has told a program. -/
theorem exists_program_of_accepted {s : State σ} (hs : Growing limit s)
    (h : Halt limit s .accepted) :
    ∃ t, IsProgram t ∧ Within limit t.height ∧ s.events = t.events := by
  rcases hs with hs | ⟨-, ht⟩
  · cases h; cases hs
  · exact ht

variable [TokenFeed σ]

theorem growing_opened (h : Within limit 1) (feed : σ) : Growing limit (opened feed) :=
  .inl (grown_frame_iff.2 ⟨[], [], rfl, .root, begun_plan _, h⟩)

theorem growing_of_move (s s' : State σ) (hs : Growing limit s) (h : Move limit s s') :
    Growing limit s' := by
  rcases hs with hs | ⟨hnil, -⟩
  · cases h with
    | @finish t feed r outer past =>
      obtain ⟨es, cs, he, outside, begun, room⟩ := grown_frame_iff.1 hs
      have hroom : Within limit (outer.length + (node r cs).height) := by
        rw [height, ← Nat.add_assoc, Nat.add_right_comm]
        exact room
      have he' : State.events ⟨t, feed, outer, .finish r :: past⟩ = es ++ (node r cs).events := by
        simp only [State.events, List.reverse_cons, events] at he ⊢
        rw [he, List.append_assoc, List.cons_append]
      rcases grown_answer outside begun.node rfl hroom with hg | ⟨rfl, rfl, rfl⟩
      · exact .inl (he' ▸ hg)
      · refine .inr ⟨rfl, node .statementPart cs, ⟨begun.node, rfl⟩, ?_, he'⟩
        rwa [List.length_nil, Nat.zero_add] at hroom
    | @take t feed r ts is outer past fit =>
      obtain ⟨es, cs, he, outside, begun, room⟩ := grown_frame_iff.1 hs
      refine .inl (grown_frame_iff.2 ⟨es, cs ++ [leaf t], ?_, outside, begun.take fit, ?_⟩)
      · simp only [State.events, List.reverse_cons] at he ⊢
        rw [he, eventsAll_append, List.append_assoc]
        rfl
      · simpa [heightAll_append, heightAll, height] using room
    | @call t feed r r' is outer past room' =>
      obtain ⟨es, cs, he, outside, begun, room⟩ := grown_frame_iff.1 hs
      have hcaller : Grown limit (some r') (⟨r, is⟩ :: outer) (es ++ .commence r :: eventsAll cs) :=
        .frame outside begun room
      refine .inl (grown_frame_iff.2 ⟨_, [], ?_, hcaller, begun_plan r', room'⟩)
      simp only [State.events, List.reverse_cons] at he ⊢
      rw [he]
      rfl
    | @choose t feed r c is js outer past pick =>
      obtain ⟨es, cs, he, outside, begun, room⟩ := grown_frame_iff.1 hs
      have way : js ∈ c.ways := mem_ways_of_pick pick
      exact .inl (grown_frame_iff.2 ⟨es, cs, he, outside, begun.choose way, room⟩)
  · cases h <;> cases hnil

theorem growing_of_steps {feed : σ} {s : State σ} (h1 : Within limit 1)
    (h : Steps limit (opened feed) s) : Growing limit s :=
  of_steps growing_of_move h (growing_opened h1 feed)

/-- Only tokens are accepted that may be in a program. -/
theorem isTerminal_of_accepted {feed : σ} {s : State σ} (h1 : Within limit 1)
    (h : Steps limit (opened feed) s) : ∀ t ∈ s.accepted, t.kind.isTerminal = true := by
  obtain ⟨p, hp, hpre⟩ := exists_program_of_growing (growing_of_steps h1 h)
  exact fun t ht => hp.isTerminal t (hpre.subset ht)

/-- An end of file is never accepted, so what is accepted comes from the tokens of the feed. -/
theorem accepted_prefix_of_steps {feed : σ} {ts : List Token} {last : Token} {s : State σ}
    (h1 : Within limit 1) (hf : TokenFeed.HandsOut feed ts last) (hlast : last.kind = .eof)
    (h : Steps limit (opened feed) s) : s.accepted <+: ts := by
  obtain ⟨p, hp, hpre⟩ := exists_program_of_growing (growing_of_steps h1 h)
  have hon : s.On feed := on_of_steps h (on_opened feed)
  exact TokenFeed.prefix_of_handsOut hf hlast hon.accepted fun t ht =>
    hp.kind_ne_eof t (hpre.subset ht)

/-- A parse accepts the first tokens of its feed. -/
theorem accepted_prefix_of_handsOut {feed : σ} {ts : List Token} {last : Token}
    (hf : TokenFeed.HandsOut feed ts last) (hlast : last.kind = .eof) :
    Event.terminals (parse feed).events <+: ts := by
  obtain ⟨v, s, hsteps, -, hp⟩ := exists_steps_halt feed
  rw [hp]
  exact accepted_prefix_of_steps (within_some.2 (by decide)) hf hlast hsteps

theorem mem_of_terminal_mem_events {feed : σ} {ts : List Token} {last t : Token}
    (hf : TokenFeed.HandsOut feed ts last) (hlast : last.kind = .eof)
    (h : .terminal t ∈ (parse feed).events) : t ∈ ts :=
  (accepted_prefix_of_handsOut hf hlast).subset (List.mem_filterMap.2 ⟨_, h, rfl⟩)

end StatementLang.Parser
