import StatementLang.Tree.Builder
import StatementLang.Tree.Dump
import StatementLang.Transcript
/-!
# Walks through syntax trees

A walk goes through a tree from left to right: it enters each node, comes by its tokens and leaves
it. The events from which a builder builds a tree are the walk through it (`walk_of_foldlM`), up to
the nodes that it closes itself (`walk_build`); and a dump prints one line for each node entered and
each token (`dumpLines_eq`).
-/
namespace StatementLang

namespace SyntaxTree

/-- One step of a walk. -/
inductive Mark where
  | enter (kind : NodeKind)
  | token (kind : TokenKind) (text : String)
  | leave
  deriving DecidableEq, Repr

mutual
/-- The walk through a tree. -/
def walk : SyntaxTree → List Mark
  | token k s => [.token k s]
  | node k cs => .enter k :: (walkAll cs ++ [.leave])

/-- The walk through a row of trees. -/
def walkAll : List SyntaxTree → List Mark
  | [] => []
  | c :: cs => c.walk ++ walkAll cs
end

theorem walkAll_append (cs ds : List SyntaxTree) :
    walkAll (cs ++ ds) = walkAll cs ++ walkAll ds := by
  induction cs with
  | nil => rfl
  | cons c cs ih => simp [walkAll, ih]

/-! ## Trees and their walks -/

mutual
/-- No tree's walk continues another's. -/
theorem eq_of_walk_append_eq : ∀ (t u : SyntaxTree) (ms ns : List Mark),
    t.walk ++ ms = u.walk ++ ns → t = u ∧ ms = ns
  | token k s, token l v, ms, ns, h => by
    simp only [walk, List.singleton_append, List.cons.injEq, Mark.token.injEq] at h
    obtain ⟨⟨rfl, rfl⟩, rfl⟩ := h
    exact ⟨rfl, rfl⟩
  | token k s, node l ds, ms, ns, h => by simp [walk] at h
  | node k cs, token l v, ms, ns, h => by simp [walk] at h
  | node k cs, node l ds, ms, ns, h => by
    simp only [walk, List.cons_append, List.append_assoc, List.cons.injEq, Mark.enter.injEq] at h
    obtain ⟨rfl, hrow⟩ := h
    obtain ⟨rfl, rfl⟩ := eq_of_walkAll_append_eq cs ds ms ns hrow
    exact ⟨rfl, rfl⟩

/-- The row ends where the node around it is left. -/
theorem eq_of_walkAll_append_eq : ∀ (cs ds : List SyntaxTree) (ms ns : List Mark),
    walkAll cs ++ .leave :: ms = walkAll ds ++ .leave :: ns → cs = ds ∧ ms = ns
  | [], [], ms, ns, h => ⟨rfl, (List.cons.inj h).2⟩
  | [], token l v :: ds, ms, ns, h => by simp [walkAll, walk] at h
  | [], node l bs :: ds, ms, ns, h => by simp [walkAll, walk] at h
  | token k s :: cs, [], ms, ns, h => by simp [walkAll, walk] at h
  | node k bs :: cs, [], ms, ns, h => by simp [walkAll, walk] at h
  | c :: cs, d :: ds, ms, ns, h => by
    rw [walkAll, walkAll, List.append_assoc, List.append_assoc] at h
    obtain ⟨rfl, hrow⟩ := eq_of_walk_append_eq c d _ _ h
    obtain ⟨rfl, rfl⟩ := eq_of_walkAll_append_eq cs ds ms ns hrow
    exact ⟨rfl, rfl⟩
end

/-- A row of trees can be read off its walk. -/
theorem eq_of_walkAll_eq {cs ds : List SyntaxTree} (h : walkAll cs = walkAll ds) : cs = ds :=
  (eq_of_walkAll_append_eq cs ds [] [] (by rw [h])).1

/-! ## The lines of a walk -/

/-- The lines for the marks of a walk that begins on `level`. -/
def markLines : Nat → List Mark → List String
  | _, [] => []
  | level, .enter k :: ms => dumpLine level k.label :: markLines (level + 1) ms
  | level, .token k s :: ms =>
    dumpLine level (k.label ++ " " ++ Text.quoted s) :: markLines level ms
  | level, .leave :: ms => markLines (level - 1) ms

theorem markLines_leave (level n : Nat) : markLines level (List.replicate n .leave) = [] := by
  induction n generalizing level with
  | zero => rfl
  | succ n ih => rw [List.replicate_succ, markLines, ih]

mutual
theorem markLines_walk : ∀ (t : SyntaxTree) (level : Nat) (ms : List Mark),
    markLines level (t.walk ++ ms) = dumpLines level t ++ markLines level ms
  | token k s, level, ms => rfl
  | node k cs, level, ms => by
    rw [walk, dumpLines, List.cons_append, markLines, List.append_assoc, markLines_walkAll]
    rfl

theorem markLines_walkAll : ∀ (cs : List SyntaxTree) (level : Nat) (ms : List Mark),
    markLines level (walkAll cs ++ ms) = dumpLinesAll level cs ++ markLines level ms
  | [], level, ms => rfl
  | c :: cs, level, ms => by
    rw [walkAll, dumpLinesAll, List.append_assoc, markLines_walk, markLines_walkAll,
      List.append_assoc]
end

/-- The lines of a dump are those of the walk. -/
theorem dumpLines_eq (t : SyntaxTree) (level : Nat) :
    dumpLines level t = markLines level t.walk := by
  have h := markLines_walk t level []
  rw [List.append_nil] at h
  rw [h, markLines, List.append_nil]

end SyntaxTree

open SyntaxTree

/-- The mark of an event. -/
def Event.mark : Event → Mark
  | commence r => .enter (.rule r)
  | terminal t => .token t.kind t.text
  | finish _ => .leave

namespace TreeBuilder

/-! ## What a builder has walked -/

/-- The walk through open nodes, as far as they have grown; the nodes are given from the innermost
outwards. -/
def walkOpen : List (Rule × List SyntaxTree) → List Mark
  | [] => []
  | (r, cs) :: outer => walkOpen outer ++ .enter (.rule r) :: walkAll cs.reverse

/-- The walk through what has been built, the root included. -/
def walk (b : TreeBuilder) : List Mark :=
  .enter .root :: (walkAll b.root.reverse ++ walkOpen b.openNodes)

theorem walk_add (b : TreeBuilder) (c : SyntaxTree) : (b.add c).walk = b.walk ++ c.walk := by
  obtain ⟨openNodes, root⟩ := b
  cases openNodes with
  | nil => simp [add, walk, walkOpen, walkAll_append, walkAll]
  | cons n outer => simp [add, walk, walkOpen, walkAll_append, walkAll]

theorem walk_step {b b' : TreeBuilder} {e : Event} (h : b.step? e = some b') :
    b'.walk = b.walk ++ [e.mark] := by
  cases e with
  | commence r =>
    cases h
    simp [walk, walkOpen, walkAll, Event.mark]
  | terminal t =>
    cases h
    exact walk_add b (.ofToken t)
  | finish r =>
    obtain ⟨openNodes, root⟩ := b
    cases openNodes with
    | nil => cases h
    | cons n outer =>
      cases h
      rw [walk_add]
      simp [walk, walkOpen, SyntaxTree.walk, Event.mark]

/-- The events that a builder has heard are what it has walked. -/
theorem walk_of_foldlM {b b' : TreeBuilder} {es : List Event} (h : es.foldlM step? b = some b') :
    b'.walk = b.walk ++ es.map Event.mark := by
  induction es generalizing b with
  | nil => cases h; exact (List.append_nil _).symm
  | cons e es ih =>
    rw [List.foldlM_cons] at h
    obtain ⟨b₁, hstep, hrest⟩ := Option.bind_eq_some_iff.1 h
    rw [ih hrest, walk_step hstep, List.append_assoc, List.map_cons]
    rfl

theorem walkAll_closeAll (root inner : List SyntaxTree)
    (openNodes : List (Rule × List SyntaxTree)) :
    walkAll (closeAll root openNodes inner).reverse = walkAll root.reverse ++ walkOpen openNodes ++
      walkAll inner.reverse ++ List.replicate openNodes.length .leave := by
  induction openNodes generalizing inner with
  | nil => simp [closeAll, walkOpen, walkAll_append]
  | cons n outer ih =>
    rw [closeAll, ih]
    simp [walkOpen, walkAll, walkAll_append, SyntaxTree.walk, List.replicate_succ]

/-- At the end a builder leaves every node that is open, and the root. -/
theorem walk_build (b : TreeBuilder) :
    b.build.walk = b.walk ++ List.replicate (b.openNodes.length + 1) .leave := by
  rw [build, SyntaxTree.walk, walkAll_closeAll, List.replicate_succ']
  simp [walk, walkAll]

/-! ## What a builder can hear -/

/-- The rules of the open nodes, innermost first. -/
def openRules (b : TreeBuilder) : List Rule := b.openNodes.map (·.1)

theorem openRules_add (b : TreeBuilder) (c : SyntaxTree) : (b.add c).openRules = b.openRules := by
  obtain ⟨openNodes, root⟩ := b
  cases openNodes <;> rfl

/-- Well nested events can be heard, and what they leave open is what the builder has open. -/
theorem exists_foldlM_of_openRules {b : TreeBuilder} {es : List Event} {rs : List Rule}
    (h : Event.openRules b.openRules es = some rs) :
    ∃ b', es.foldlM step? b = some b' ∧ b'.openRules = rs := by
  induction es generalizing b with
  | nil =>
    rw [Event.openRules] at h
    exact ⟨b, rfl, Option.some.inj h⟩
  | cons e es ih =>
    suffices hstep : ∃ b₁, b.step? e = some b₁ ∧ Event.openRules b₁.openRules es = some rs by
      obtain ⟨b₁, h₁, hrest⟩ := hstep
      obtain ⟨b', h', hb'⟩ := ih hrest
      exact ⟨b', by rw [List.foldlM_cons, h₁]; exact h', hb'⟩
    obtain ⟨openNodes, root⟩ := b
    cases e with
    | commence r => exact ⟨_, rfl, h⟩
    | terminal t =>
      refine ⟨_, rfl, ?_⟩
      rw [openRules_add]
      cases openNodes with
      | nil => cases h
      | cons n outer => exact h
    | finish s =>
      cases openNodes with
      | nil => cases h
      | cons n outer =>
        refine ⟨_, rfl, ?_⟩
        rw [openRules_add]
        have hfinish : (if n.1 = s then Event.openRules (outer.map (·.1)) es else none) = some rs :=
          h
        split at hfinish
        · exact hfinish
        · cases hfinish

end TreeBuilder

/-! ## Trees and transcripts -/

/-- The line of the element that an event adds to a tree, by the level of the event. Finishing a
rule adds none. -/
def elementLine? : Nat × Event → Option String
  | (depth, .commence r) => some (dumpLine (depth + 1) (NodeKind.rule r).label)
  | (depth, .terminal t) =>
    some (dumpLine (depth + 1) (t.kind.label ++ " " ++ Text.quoted t.text))
  | (_, .finish _) => none

/-- As long as events are well nested, a tree has its elements one level below their events. -/
theorem markLines_events {outer rs : List Rule} {es : List Event}
    (h : Event.openRules outer es = some rs) (ms : List Mark) :
    markLines (outer.length + 1) (es.map Event.mark ++ ms) =
      (Transcript.levels outer.length es).filterMap elementLine? ++
        markLines (rs.length + 1) ms := by
  fun_induction Event.openRules outer es with
  | case1 outer => cases h; rfl
  | case2 outer r es ih => exact congrArg _ (ih h)
  | case3 r outer t es ih => exact congrArg _ (ih h)
  | case4 => cases h
  | case5 outer s es ih => exact ih h
  | case6 => cases h
  | case7 => cases h

/-- The walk through the tree that some events describe goes along these events, and at the end it
leaves what is still open. -/
theorem walk_of_ofEvents? {es : List Event} {t : SyntaxTree}
    (h : SyntaxTree.ofEvents? es = some t) :
    ∃ n, t.walk = .enter .root :: (es.map Event.mark ++ List.replicate n .leave) := by
  obtain ⟨b, hb, rfl⟩ := Option.map_eq_some_iff.1 h
  refine ⟨b.openNodes.length + 1, ?_⟩
  rw [TreeBuilder.walk_build, TreeBuilder.walk_of_foldlM hb]
  rfl

theorem exists_ofEvents?_of_openRules {es : List Event} {rs : List Rule}
    (h : Event.openRules [] es = some rs) : ∃ t, SyntaxTree.ofEvents? es = some t := by
  obtain ⟨b, hb, -⟩ := TreeBuilder.exists_foldlM_of_openRules (b := .empty) h
  exact ⟨b.build, by rw [SyntaxTree.ofEvents?, hb]; rfl⟩

/-- The lines of the tree that well nested events describe. -/
theorem exists_tree_of_openRules {es : List Event} {rs : List Rule}
    (h : Event.openRules [] es = some rs) :
    ∃ t, SyntaxTree.ofEvents? es = some t ∧
      dumpLines 0 t = "Root\n" :: (Transcript.levels 0 es).filterMap elementLine? := by
  obtain ⟨t, ht⟩ := exists_ofEvents?_of_openRules h
  obtain ⟨n, hwalk⟩ := walk_of_ofEvents? ht
  refine ⟨t, ht, ?_⟩
  rw [dumpLines_eq, hwalk, markLines]
  have hlines := markLines_events h (List.replicate n .leave)
  rw [List.length_nil, Nat.zero_add] at hlines
  rw [Nat.zero_add, hlines, markLines_leave, List.append_nil]
  rfl

/-! ## Trees and their texts -/

namespace SyntaxTree

/-- The text that a walk comes by at a mark. -/
def Mark.text : Mark → String
  | token _ s => s
  | _ => ""

mutual
theorem text_eq_join : ∀ t : SyntaxTree, t.text = String.join (t.walk.map Mark.text)
  | token k s => by simp [text, walk, Mark.text, String.join]
  | node k cs => by
    rw [text, walk, textAll_eq_join cs]
    simp [Mark.text, String.join_append]

theorem textAll_eq_join : ∀ cs : List SyntaxTree,
    textAll cs = String.join ((walkAll cs).map Mark.text)
  | [] => rfl
  | c :: cs => by
    rw [textAll, walkAll, text_eq_join c, textAll_eq_join cs, List.map_append, String.join_append]
end

end SyntaxTree

theorem join_text_mark (es : List Event) :
    String.join ((es.map Event.mark).map Mark.text) =
      String.join ((Event.terminals es).map Token.text) := by
  induction es with
  | nil => rfl
  | cons e es ih =>
    cases e with
    | terminal t =>
      show String.join (t.text :: _) = String.join (t.text :: _)
      rw [String.join_cons, String.join_cons, ih]
      rfl
    | _ =>
      rw [List.map_cons, List.map_cons, String.join_cons, ih]
      exact String.empty_append

/-- The text of a tree is made up of the texts of the terminals. -/
theorem text_of_ofEvents? {es : List Event} {t : SyntaxTree}
    (h : SyntaxTree.ofEvents? es = some t) :
    t.text = String.join ((Event.terminals es).map Token.text) := by
  obtain ⟨n, hwalk⟩ := walk_of_ofEvents? h
  have hleave : String.join ((List.replicate n Mark.leave).map Mark.text) = "" := by
    rw [List.map_replicate, ← String.toList_inj, String.toList_join]
    simp [Mark.text]
  rw [text_eq_join, hwalk, List.map_cons, String.join_cons, List.map_append, String.join_append,
    join_text_mark, hleave, String.append_empty]
  exact String.empty_append

end StatementLang
