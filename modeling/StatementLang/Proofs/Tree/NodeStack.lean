import StatementLang.Proofs.Tree.Notices
/-!
# Building trees on a plain stack of nodes

A stack of nodes knows nothing of rules: nodes are started and finished on it, and the root is a
node like others. Whoever builds on it has to count the rules that are open, so as to finish those
and the root in the end. The count is the number of nodes above the root (`hear?_ofBuilder`), so
such a builder comes to the tree of the notices, and where there is none, it is the count that would
get below zero (`tree_of_any_notices`).
-/
namespace StatementLang

open SyntaxTree Notice

/-- The nodes that are started, from the innermost outwards, each with its children so far, the
latest first; and what stands outside all of them, the latest first. -/
structure NodeStack where
  started : List (NodeKind × List SyntaxTree)
  outside : List SyntaxTree

namespace NodeStack

def empty : NodeStack := ⟨[], []⟩

def start (s : NodeStack) (k : NodeKind) : NodeStack := { s with started := (k, []) :: s.started }

/-- Add a child to the node started last. -/
def add (s : NodeStack) (c : SyntaxTree) : NodeStack :=
  match s.started with
  | [] => { s with outside := c :: s.outside }
  | (k, cs) :: outer => { s with started := (k, c :: cs) :: outer }

/-- Finish the node started last. -/
def finish? (s : NodeStack) : Option NodeStack :=
  match s.started with
  | [] => none
  | (k, cs) :: outer => some (add ⟨outer, s.outside⟩ (.node k cs.reverse))

/-- Finish the node started last, `n` times. -/
def finishAll? : Nat → NodeStack → Option NodeStack
  | 0, s => some s
  | n + 1, s => s.finish?.bind (finishAll? n)

/-- The one tree that stands outside, once all nodes are finished. -/
def tree? : NodeStack → Option SyntaxTree
  | ⟨[], [t]⟩ => some t
  | _ => none

end NodeStack

/-- A stack of nodes with a count of the rules that are open. -/
structure CountingBuilder where
  nodes : NodeStack
  opened : Nat

namespace CountingBuilder

/-- Only the root is started. -/
def fresh : CountingBuilder := ⟨NodeStack.empty.start .root, 0⟩

/-- The count of open rules cannot get below zero. -/
def hear? (s : CountingBuilder) : Notice → Option CountingBuilder
  | .event (.commence r) => some ⟨s.nodes.start (.rule r), s.opened + 1⟩
  | .event (.terminal t) => some { s with nodes := s.nodes.add (.ofToken t) }
  | .event (.finish _) =>
    s.nodes.finish?.bind fun nodes => if s.opened = 0 then none else some ⟨nodes, s.opened - 1⟩
  | .report _ _ => some s

/-- Finish the rules that are open, then the root. -/
def tree? (s : CountingBuilder) : Option SyntaxTree :=
  (s.nodes.finishAll? (s.opened + 1)).bind NodeStack.tree?

/-! ## The count and the stack -/

/-- The stack has the open nodes above the root, and nothing stands outside. -/
def ofBuilder (b : TreeBuilder) : CountingBuilder where
  nodes := ⟨b.openNodes.map (fun n => (.rule n.1, n.2)) ++ [(.root, b.root)], []⟩
  opened := b.openNodes.length

theorem fresh_eq : fresh = ofBuilder .empty := rfl

theorem add_ofBuilder (b : TreeBuilder) (c : SyntaxTree) :
    { ofBuilder b with nodes := (ofBuilder b).nodes.add c } = ofBuilder (b.add c) := by
  obtain ⟨openNodes, root⟩ := b
  cases openNodes <;> rfl

theorem finish?_ofBuilder {b b' : TreeBuilder} (h : b.close? = some b') :
    (ofBuilder b).nodes.finish? = some (ofBuilder b').nodes ∧
      (ofBuilder b).opened = (ofBuilder b').opened + 1 := by
  obtain ⟨openNodes, root⟩ := b
  cases openNodes with
  | nil => cases h
  | cons node outer =>
    cases h
    rw [← add_ofBuilder]
    exact ⟨rfl, rfl⟩

/-- Where no rule is open, there still is the root to be finished. -/
theorem exists_finish?_ofBuilder {b : TreeBuilder} (h : b.openNodes = []) :
    (ofBuilder b).opened = 0 ∧ ∃ nodes, (ofBuilder b).nodes.finish? = some nodes := by
  obtain ⟨openNodes, root⟩ := b
  obtain rfl : openNodes = [] := h
  exact ⟨rfl, _, rfl⟩

/-- The count mirrors the stack: what stops a builder of trees is a count of zero here. -/
theorem hear?_ofBuilder (b : TreeBuilder) (n : Notice) :
    (ofBuilder b).hear? n = (b.hear? n).map ofBuilder := by
  cases n with
  | report t expected => rfl
  | event e =>
    cases e with
    | commence r => rfl
    | terminal t => exact congrArg some (add_ofBuilder b _)
    | finish r =>
      show ((ofBuilder b).nodes.finish?.bind fun nodes => _) = b.close?.map ofBuilder
      cases hclose : b.close? with
      | some b' =>
        obtain ⟨hfinish, hopened⟩ := finish?_ofBuilder hclose
        rw [hfinish, hopened]
        rfl
      | none =>
        have hnone : b.openNodes = [] := (TreeBuilder.hear?_eq_none_iff.1
          (show b.hear? (.event (.finish r)) = none from hclose)).2
        obtain ⟨hopened, nodes, hfinish⟩ := exists_finish?_ofBuilder hnone
        rw [hfinish, hopened]
        rfl

theorem foldlM_ofBuilder (b : TreeBuilder) (ns : List Notice) :
    ns.foldlM hear? (ofBuilder b) = (ns.foldlM TreeBuilder.hear? b).map ofBuilder := by
  induction ns generalizing b with
  | nil => rfl
  | cons n ns ih =>
    rw [List.foldlM_cons, List.foldlM_cons, hear?_ofBuilder]
    cases b.hear? n with
    | none => rfl
    | some b' => exact ih b'

/-! ## The end -/

/-- Closing the innermost node first leaves the tree that is built. -/
theorem build_of_close? {b b' : TreeBuilder} (h : b.close? = some b') : b'.build = b.build := by
  obtain ⟨openNodes, root⟩ := b
  match openNodes with
  | [] => cases h
  | [_] => cases h; rfl
  | _ :: _ :: _ => cases h; rfl

theorem tree?_ofBuilder (b : TreeBuilder) : (ofBuilder b).tree? = some b.build := by
  obtain ⟨n, hn⟩ : ∃ n, b.openNodes.length = n := ⟨_, rfl⟩
  induction n generalizing b with
  | zero =>
    obtain ⟨openNodes, root⟩ := b
    obtain rfl : openNodes = [] := List.eq_nil_of_length_eq_zero hn
    rfl
  | succ n ih =>
    obtain ⟨b', hclose⟩ : ∃ b', b.close? = some b' := by
      obtain ⟨_ | ⟨node, outer⟩, root⟩ := b
      · cases hn
      · exact ⟨_, rfl⟩
    obtain ⟨hfinish, hopened⟩ := finish?_ofBuilder hclose
    have hlength : b'.openNodes.length = n := Nat.succ.inj (hopened.symm.trans hn)
    rw [← build_of_close? hclose, ← ih b' hlength, tree?, hopened, NodeStack.finishAll?, hfinish]
    rfl

/-- The tree that some notices build on a stack. -/
def treeOf? (ns : List Notice) : Option SyntaxTree := (ns.foldlM hear? fresh).bind tree?

theorem treeOf?_eq (ns : List Notice) : treeOf? ns = ofNotices? ns := by
  rw [treeOf?, fresh_eq, foldlM_ofBuilder, ofNotices?]
  cases ns.foldlM TreeBuilder.hear? .empty with
  | none => rfl
  | some b => exact tree?_ofBuilder b

end CountingBuilder

/-- **A builder makes the tree it is told, or stops at the first finish too many.** As long as no
more rules are finished than commenced, there is one tree, and on a plain stack of nodes it is the
same. The walk through the children of its root is the events in their order, then one leave for
each rule still open. Otherwise the first finish too many comes where no rule is open: a builder on
a stack has the root to finish there, but no rule to count down. A parse never gets there. -/
theorem tree_of_any_notices (ns : List Notice) :
    CountingBuilder.treeOf? ns = ofNotices? ns ∧
    (Covered ns → ∃ cs, ofNotices? ns = some (.node .root cs) ∧
      walkAll cs = (Notice.events ns).map Event.mark ++
        List.replicate (commenced ns - finished ns) .leave ∧
      ∀ ds, walkAll ds = walkAll cs → ds = cs) ∧
    (¬ Covered ns → ofNotices? ns = none ∧ ∃ past r rest s,
      ns = past ++ .event (.finish r) :: rest ∧ Covered past ∧ finished past = commenced past ∧
      past.foldlM CountingBuilder.hear? .fresh = some s ∧ s.opened = 0 ∧
      (∃ nodes, s.nodes.finish? = some nodes) ∧ s.hear? (.event (.finish r)) = none) ∧
    ∀ {σ : Type} [TokenFeed σ] (f : σ), Covered (parse f).notices := by
  refine ⟨CountingBuilder.treeOf?_eq ns, fun hcovered => ?_, fun hover => ?_,
    Parser.covered_notices⟩
  · obtain ⟨b, hb⟩ := TreeBuilder.exists_foldlM_of_covered hcovered
    refine ⟨_, ?_, TreeBuilder.walkAll_of_foldlM hb, fun ds hds => eq_of_walkAll_eq hds⟩
    rw [ofNotices?, hb]
    rfl
  · rcases TreeBuilder.exists_foldlM_or_tooMany ns with ⟨hcovered, -⟩ | htoo
    · exact absurd hcovered hover
    obtain ⟨past, r, rest, b, rfl, htoo⟩ := htoo
    have hrun : past.foldlM CountingBuilder.hear? .fresh = some (.ofBuilder b) := by
      rw [CountingBuilder.fresh_eq, CountingBuilder.foldlM_ofBuilder, htoo.built]
      rfl
    have hnone : b.openNodes = [] := (TreeBuilder.hear?_eq_none_iff.1 htoo.stops).2
    obtain ⟨hopened, hnodes⟩ := CountingBuilder.exists_finish?_ofBuilder hnone
    refine ⟨?_, past, r, rest, .ofBuilder b, rfl, htoo.covered, htoo.finished_eq, hrun, hopened,
      hnodes, ?_⟩
    · rw [ofNotices?, htoo.foldlM_eq_none]
      rfl
    · rw [CountingBuilder.hear?_ofBuilder, htoo.stops]
      rfl

end StatementLang
