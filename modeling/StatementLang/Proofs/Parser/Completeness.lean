import StatementLang.Proofs.Parser.Growth
/-!
# The parser tells every program

When a derivation tree stands next in a feed, and no token behind it makes its rule go on, the
parser goes through it and tells its events (`treeRuns_of_derives`). The proof follows the
derivation; at each choice the kinds that can come next leave one way only, the one the tree took
(`Foretold`). So a program at the front of a feed is accepted, unless it nests too deep
(`parseWithin_of_program`).
-/
namespace StatementLang.Parser

open ParseTree TokenFeed

variable {σ : Type} {limit : Option Nat} {s s' : State σ}

theorem accepted_of_events_eq {es : List Event} (h : s'.events = s.events ++ es) :
    s'.accepted = s.accepted ++ Event.terminals es := by
  rw [State.accepted, h, Event.terminals_append]
  rfl

theorem pos_of_events_eq {es : List Event} (h : s'.events = s.events ++ es) :
    s'.pos = s.pos + (Event.terminals es).length := by
  rw [State.pos, accepted_of_events_eq h, List.length_append]
  rfl

variable [TokenFeed σ] {f : σ}

/-- The parse stands before the derived row `cs`, and a token of kind `k` comes behind it. -/
structure Before (f : σ) (s : State σ) (cs : List ParseTree) (k : TokenKind) : Prop where
  on : s.On f
  derives : ∀ c ∈ cs, c.Derives
  reads : Reads f s.pos (yieldAll cs)
  next : (get f (s.pos + (yieldAll cs).length)).kind = k

theorem Before.of_accepted_eq {cs : List ParseTree} {k : TokenKind} (h : Before f s cs k)
    (on' : s'.On f) (ha : s'.accepted = s.accepted) : Before f s' cs k := by
  have hpos : s'.pos = s.pos := congrArg List.length ha
  exact ⟨on', h.derives, hpos ▸ h.reads, hpos ▸ h.next⟩

theorem Before.children {r : Rule} {cs : List ParseTree} {k : TokenKind}
    (h : Before f s [node r cs] k) : Before f s cs k := by
  obtain ⟨on, derives, reads, next⟩ := h
  rw [yieldAll, yieldAll, List.append_nil] at reads next
  exact ⟨on, derives_of_mem (derives _ (List.mem_singleton_self _)), reads, next⟩

/-- The lookahead is of a kind with which the row, or what comes behind it, can begin. -/
theorem Before.kind_mem_heads {cs : List ParseTree} {k : TokenKind} (h : Before f s cs k) :
    s.lookahead.kind ∈ GrammarSymbol.heads (cs.map symbol) k := by
  obtain ⟨on, derives, reads, next⟩ := h
  rw [on.lookahead]
  cases cs with
  | nil => exact List.mem_singleton.2 next
  | cons c cs =>
    obtain ⟨a, w, hy, ha⟩ := exists_first (derives c List.mem_cons_self)
    rw [yieldAll, hy, List.cons_append, reads_cons] at reads
    rw [reads.1]
    exact ha

/-- Where the first tree of a row has been told, the parse stands before the rest. -/
theorem Before.tail {c : ParseTree} {cs : List ParseTree} {k : TokenKind}
    (h : Before f s (c :: cs) k) (on' : s'.On f) (he : s'.events = s.events ++ c.events) :
    Before f s' cs k := by
  obtain ⟨on, derives, reads, next⟩ := h
  have hpos : s'.pos = s.pos + c.yield.length := by
    rw [pos_of_events_eq he, terminals_events]
  rw [yieldAll, reads_append] at reads
  rw [yieldAll, List.length_append, ← Nat.add_assoc] at next
  refine ⟨on', fun d hd => derives d (List.mem_cons_of_mem c hd), ?_, ?_⟩
  · rw [hpos]; exact reads.2
  · rw [hpos]; exact next

/-- Behind the first tree of a row comes a kind with which the rest can begin. -/
theorem Before.head {c : ParseTree} {cs : List ParseTree} {k : TokenKind}
    (h : Before f s (c :: cs) k) :
    ∃ a ∈ GrammarSymbol.heads (cs.map symbol) k, Before f s [c] a := by
  obtain ⟨on, derives, reads, next⟩ := h
  have hc : yieldAll [c] = c.yield := by rw [yieldAll, yieldAll, List.append_nil]
  rw [yieldAll, reads_append] at reads
  rw [yieldAll, List.length_append, ← Nat.add_assoc] at next
  refine ⟨(get f (s.pos + c.yield.length)).kind, ?_, on, ?_, ?_, ?_⟩
  · cases cs with
    | nil => exact List.mem_singleton.2 next
    | cons d ds =>
      obtain ⟨a, w, hy, ha⟩ :=
        exists_first (derives d (List.mem_cons_of_mem c List.mem_cons_self))
      have hr := reads.2
      rw [yieldAll, hy, List.cons_append, reads_cons] at hr
      rw [hr.1]
      exact ha
  · exact fun d hd => derives d (List.mem_singleton.1 hd ▸ List.mem_cons_self)
  · rw [hc]; exact reads.1
  · rw [hc]

/-- A parse that has called the rule of `t` goes through `t`, when `t` comes next. -/
def TreeRuns (limit : Option Nat) (f : σ) (t : ParseTree) : Prop :=
  ∀ (s : State σ) (r r' : Rule) (is : List Item) (outer : List Frame) (k : TokenKind),
    t.symbol = .rule r → s.frames = ⟨r', .call r :: is⟩ :: outer → Before f s [t] k →
    k ∉ r.more → Within limit (outer.length + 1 + t.height) →
    ∃ s', Steps limit s s' ∧ s'.frames = ⟨r', is⟩ :: outer ∧ s'.events = s.events ++ t.events

/-- Moves along the first tree of a row, then along the rest. -/
theorem exists_steps_cons {s₁ : State σ} {c : ParseTree} {cs : List ParseTree} {fs : List Frame}
    (h : Steps limit s s₁) (he : s₁.events = s.events ++ c.events)
    (rest : ∃ s', Steps limit s₁ s' ∧ s'.frames = fs ∧ s'.events = s₁.events ++ eventsAll cs) :
    ∃ s', Steps limit s s' ∧ s'.frames = fs ∧ s'.events = s.events ++ eventsAll (c :: cs) := by
  obtain ⟨s', h', hfs, he'⟩ := rest
  refine ⟨s', h.trans h', hfs, ?_⟩
  rw [he', he, eventsAll, List.append_assoc]

/-- A frame goes through its items along a row of trees. -/
theorem steps_of_foretold {k : TokenKind} {todo : List Item} {xs : List GrammarSymbol}
    (h : Foretold k todo xs) (cs : List ParseTree) (hxs : cs.map symbol = xs)
    (runs : ∀ c ∈ cs, TreeRuns limit f c) {r : Rule} {outer : List Frame}
    (hs : s.frames = ⟨r, todo⟩ :: outer) (before : Before f s cs k)
    (room : Within limit (outer.length + 1 + heightAll cs)) :
    ∃ s', Steps limit s s' ∧ s'.frames = ⟨r, []⟩ :: outer ∧
      s'.events = s.events ++ eventsAll cs := by
  induction h generalizing cs s with
  | nil =>
    rw [List.map_eq_nil_iff.1 hxs]
    exact ⟨s, .refl, hs, (List.append_nil _).symm⟩
  | @take ts a is xs fit _ ih =>
    obtain ⟨c, ds, rfl, hc, hds⟩ := List.map_eq_cons_iff.1 hxs
    have hroom : Within limit (outer.length + 1 + heightAll ds) :=
      room.mono (by rw [heightAll]; omega)
    cases c with
    | node r' bs => cases hc
    | leaf t =>
      have hkind : t.kind = a := by cases hc; rfl
      have hlook : s.lookahead = t :=
        before.on.lookahead.trans (reads_cons.1 before.reads).1
      obtain ⟨t', feed, frames, past⟩ := s
      subst hs hlook
      have hm : Move limit ⟨t', feed, ⟨r, .take ts :: is⟩ :: outer, past⟩ _ :=
        .take (hkind ▸ fit)
      have he : (.terminal t' :: past).reverse = past.reverse ++ (leaf t').events :=
        List.reverse_cons
      refine exists_steps_cons (.single hm) he (ih ds hds ?_ rfl ?_ hroom)
      · exact fun d hd => runs d (List.mem_cons_of_mem _ hd)
      · exact before.tail (on_of_move _ _ before.on hm) he
  | @call r' is xs stop _ ih =>
    obtain ⟨c, ds, rfl, hc, hds⟩ := List.map_eq_cons_iff.1 hxs
    have hroomc : Within limit (outer.length + 1 + c.height) :=
      room.mono (by rw [heightAll]; omega)
    have hroom : Within limit (outer.length + 1 + heightAll ds) :=
      room.mono (by rw [heightAll]; omega)
    obtain ⟨a, ha, hbefore⟩ := before.head
    rw [hds] at ha
    obtain ⟨s₁, hsteps, hs₁, he⟩ :=
      runs c List.mem_cons_self s r' r is outer a hc hs hbefore (stop a ha) hroomc
    refine exists_steps_cons hsteps he (ih ds hds ?_ hs₁ ?_ hroom)
    · exact fun d hd => runs d (List.mem_cons_of_mem _ hd)
    · exact before.tail (on_of_steps hsteps before.on) he
  | @choose c is js xs pick _ ih =>
    have hpick : c.pick s.lookahead.kind = some js := pick _ (hxs ▸ before.kind_mem_heads)
    obtain ⟨t, feed, frames, past⟩ := s
    subst hs
    have hm : Move limit ⟨t, feed, ⟨r, .choose c :: is⟩ :: outer, past⟩ _ := .choose hpick
    have hbefore := before.of_accepted_eq (on_of_move _ _ before.on hm) rfl
    obtain ⟨s', hsteps, hs', he⟩ := ih cs hxs runs rfl hbefore room
    exact ⟨s', .head hm hsteps, hs', he⟩

/-- A parse goes through every derivation tree that stands next in its feed. -/
theorem treeRuns_of_derives {t : ParseTree} (h : t.Derives) : TreeRuns limit f t := by
  induction h with
  | leaf a => intro s r r' is outer k hr; cases hr
  | @node r cs production derives ih =>
    intro s q r' is outer k hr hs before hk room
    cases hr
    obtain ⟨t, feed, frames, past⟩ := s
    subst hs
    have hroom : Within limit ((⟨r', is⟩ :: outer : List Frame).length + 1 + heightAll cs) :=
      room.mono (by rw [height, List.length_cons]; omega)
    have hm : Move limit ⟨t, feed, ⟨r', .call r :: is⟩ :: outer, past⟩ _ :=
      .call (room.mono (by rw [height]; omega))
    have hbefore := before.children.of_accepted_eq (on_of_move _ _ before.on hm) (accepted_cons rfl)
    obtain ⟨s₁, hsteps, hs₁, he⟩ :=
      steps_of_foretold (foretold_plan production hk) cs rfl ih rfl hbefore hroom
    obtain ⟨t₁, feed₁, frames₁, past₁⟩ := s₁
    subst hs₁
    refine ⟨_, .head hm (hsteps.tail .finish), rfl, ?_⟩
    simp only [State.events, List.reverse_cons, events] at he ⊢
    rw [he]
    simp

/-- A program at the front of a feed is accepted and told, unless it nests too deep. -/
theorem steps_of_program {t : ParseTree} (h : IsProgram t) (hf : Reads f 0 t.yield)
    (room : Within limit t.height) :
    ∃ s, Steps limit (opened f) s ∧ Halt limit s .accepted ∧ s.events = t.events := by
  obtain ⟨derives, hroot⟩ := h
  cases t with
  | leaf a => cases hroot
  | node r cs =>
    cases hroot
    have before : Before f (opened f) cs (get f (yieldAll cs).length).kind := by
      refine ⟨on_opened f, derives_of_mem derives, hf, ?_⟩
      exact congrArg (fun n => (get f n).kind) (Nat.zero_add _)
    have foretold := foretold_plan (production_of_derives derives)
      (List.not_mem_nil (a := (get f (yieldAll cs).length).kind))
    have runs : ∀ c ∈ cs, TreeRuns limit f c := fun c hc =>
      treeRuns_of_derives (derives_of_mem derives c hc)
    have hroom : Within limit (([] : List Frame).length + 1 + heightAll cs) :=
      room.mono (by rw [height, List.length_nil]; omega)
    obtain ⟨s, hsteps, hs, he⟩ := steps_of_foretold foretold cs rfl runs rfl before hroom
    obtain ⟨t, feed, frames, past⟩ := s
    subst hs
    refine ⟨_, hsteps.tail .finish, .accepted, ?_⟩
    simp only [State.events, List.reverse_cons, events] at he ⊢
    rw [he]
    rfl

/-- Within its limit a parse accepts every program, and tells it. -/
theorem parseWithin_of_program {t : ParseTree} (h : IsProgram t) (hf : Reads f 0 t.yield)
    (room : Within limit t.height) :
    (parseWithin limit f).verdict = .accepted ∧ (parseWithin limit f).events = t.events := by
  obtain ⟨s, hsteps, hhalt, he⟩ := steps_of_program h hf room
  have hone : Within limit 1 := by
    obtain ⟨derives, hroot⟩ := h
    cases derives with
    | leaf a => cases hroot
    | node => exact room.mono (by rw [height]; omega)
  rw [parseWithin_eq hone, run_eq_iff.2 ⟨hsteps, hhalt⟩]
  exact ⟨rfl, he⟩

end StatementLang.Parser
