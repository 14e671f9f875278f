import StatementLang.Tree
import StatementLang.Notice
/-!
# Building trees from events

A builder holds the nodes that are open, each with the children it has so far. Commencing a rule
opens a node, finishing closes the innermost one whatever its rule, and nodes that are still open at
the end are closed then. The root cannot be finished: one more finish than there are open rules has
no result. Reports add nothing.

A builder is the program's `TreeSink` together with the green-tree library that it calls. Of that
library only the shape of the trees is kept; that it may share equal nodes, and where in the text a
node begins, is left out.
-/
namespace StatementLang

/-- The open rules from the innermost outwards, each with its children, the latest first; and the
children of the root, the latest first. -/
structure TreeBuilder where
  openNodes : List (Rule × List SyntaxTree)
  root : List SyntaxTree

namespace TreeBuilder

def empty : TreeBuilder := ⟨[], []⟩

/-- Add a child to the innermost open node (`token`). -/
def add (b : TreeBuilder) (c : SyntaxTree) : TreeBuilder :=
  match b.openNodes with
  | [] => { b with root := c :: b.root }
  | (r, cs) :: outer => { b with openNodes := (r, c :: cs) :: outer }

/-- Close the innermost open node, unless that is the root (`finish_node`). -/
def close? (b : TreeBuilder) : Option TreeBuilder :=
  match b.openNodes with
  | [] => none
  | (r, cs) :: outer => some (add ⟨outer, b.root⟩ (.node (.rule r) cs.reverse))

/-- The builder after an event (`commence`, `accept_terminal`, `finish`). -/
def step? (b : TreeBuilder) : Event → Option TreeBuilder
  | .commence r => some { b with openNodes := (r, []) :: b.openNodes }
  | .terminal t => some (b.add (.ofToken t))
  | .finish _ => b.close?

instance : Listener TreeBuilder where
  hear? := step?

/-- The builder after a notice. A report leaves the nodes as they are (`report_error`). -/
def hear? (b : TreeBuilder) : Notice → Option TreeBuilder
  | .event e => b.step? e
  | .report _ _ => some b

/-- The children of the root, the latest first, once the given nodes are closed from the innermost
outwards; `inner` is what the innermost of them still gets. -/
def closeAll (root : List SyntaxTree) :
    List (Rule × List SyntaxTree) → List SyntaxTree → List SyntaxTree
  | [], inner => inner ++ root
  | (r, cs) :: outer, inner => closeAll root outer [.node (.rule r) (inner ++ cs).reverse]

/-- The tree, with every open node closed (`into_green`). -/
def build (b : TreeBuilder) : SyntaxTree := .node .root (closeAll b.root b.openNodes []).reverse

end TreeBuilder

/-- The tree that some notices describe. -/
def SyntaxTree.ofNotices? (ns : List Notice) : Option SyntaxTree :=
  (ns.foldlM TreeBuilder.hear? .empty).map TreeBuilder.build

/-- The tree that some events describe. -/
def SyntaxTree.ofEvents? (es : List Event) : Option SyntaxTree :=
  (es.foldlM TreeBuilder.step? .empty).map TreeBuilder.build

theorem SyntaxTree.ofNotices?_map_event (es : List Event) :
    ofNotices? (es.map .event) = ofEvents? es := by
  have key (b : TreeBuilder) : (es.map Notice.event).foldlM TreeBuilder.hear? b =
      es.foldlM TreeBuilder.step? b := by
    induction es generalizing b with
    | nil => rfl
    | cons e es ih => simp [List.foldlM_cons, TreeBuilder.hear?, ih]
  simp [ofNotices?, ofEvents?, key]

end StatementLang
