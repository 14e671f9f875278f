import StatementLang.Proofs.Grammar.Trees
import StatementLang.Tree.Builder
/-!
# Programs as syntax trees

The syntax tree of a derivation tree has its rules, and the kinds and texts of its tokens; only the
lines are missing. It is what the events of the derivation tree build (`ofEvents?_events`), and it
does not change when the tokens are exchanged for others of the same kinds and texts
(`toSyntax_map`).
-/
namespace StatementLang

namespace ParseTree

mutual
/-- The tree without the lines of its tokens. -/
def toSyntax : ParseTree → SyntaxTree
  | leaf t => .ofToken t
  | node r cs => .node (.rule r) (toSyntaxAll cs)

/-- A row of trees without the lines of their tokens. -/
def toSyntaxAll : List ParseTree → List SyntaxTree
  | [] => []
  | c :: cs => c.toSyntax :: toSyntaxAll cs
end

/-! ## Building a program -/

section Build

open TreeBuilder

theorem foldl_add (r : Rule) (ds : List SyntaxTree) (outer : List (Rule × List SyntaxTree))
    (root cs : List SyntaxTree) :
    cs.foldl add ⟨(r, ds) :: outer, root⟩ = ⟨(r, cs.reverse ++ ds) :: outer, root⟩ := by
  induction cs generalizing ds with
  | nil => rfl
  | cons c cs ih =>
    rw [List.foldl_cons, add, ih, List.reverse_cons, List.append_assoc]
    rfl

mutual
/-- The events of a tree add its syntax tree to what has been built. -/
theorem foldlM_events : ∀ (t : ParseTree) (b : TreeBuilder),
    t.events.foldlM step? b = some (b.add t.toSyntax)
  | leaf t, b => rfl
  | node r cs, b => by
    have hopen : b.step? (.commence r) = some ⟨(r, []) :: b.openNodes, b.root⟩ := rfl
    have hrow := foldlM_eventsAll cs ⟨(r, []) :: b.openNodes, b.root⟩
    rw [foldl_add, List.append_nil] at hrow
    rw [events, List.foldlM_cons, hopen, Option.bind_eq_bind, Option.bind_some, List.foldlM_append,
      hrow, toSyntax]
    simp [step?, close?]

theorem foldlM_eventsAll : ∀ (cs : List ParseTree) (b : TreeBuilder),
    (eventsAll cs).foldlM step? b = some ((toSyntaxAll cs).foldl add b)
  | [], b => rfl
  | c :: cs, b => by
    rw [eventsAll, List.foldlM_append, foldlM_events c, Option.bind_eq_bind, Option.bind_some,
      foldlM_eventsAll cs, toSyntaxAll, List.foldl_cons]
end

theorem ofEvents?_events (t : ParseTree) :
    SyntaxTree.ofEvents? t.events = some (.node .root [t.toSyntax]) := by
  rw [SyntaxTree.ofEvents?, foldlM_events]
  rfl

end Build

/-! ## Exchanging tokens -/

mutual
/-- The tree with `f` applied to its tokens. -/
def map (f : Token → Token) : ParseTree → ParseTree
  | leaf t => leaf (f t)
  | node r cs => node r (mapAll f cs)

/-- A row of trees with `f` applied to their tokens. -/
def mapAll (f : Token → Token) : List ParseTree → List ParseTree
  | [] => []
  | c :: cs => c.map f :: mapAll f cs
end

variable {f : Token → Token}

theorem mapAll_eq (cs : List ParseTree) : mapAll f cs = cs.map (map f) := by
  induction cs with
  | nil => rfl
  | cons c cs ih => rw [mapAll, ih, List.map_cons]

mutual
theorem yield_map : ∀ t : ParseTree, (t.map f).yield = t.yield.map f
  | leaf _ => rfl
  | node _ cs => yieldAll_map cs

theorem yieldAll_map : ∀ cs : List ParseTree, yieldAll (mapAll f cs) = (yieldAll cs).map f
  | [] => rfl
  | c :: cs => by rw [mapAll, yieldAll, yield_map c, yieldAll_map cs, yieldAll, List.map_append]
end

mutual
theorem height_map : ∀ t : ParseTree, (t.map f).height = t.height
  | leaf t => rfl
  | node r cs => by rw [map, height, heightAll_map cs, height]

theorem heightAll_map : ∀ cs : List ParseTree, heightAll (mapAll f cs) = heightAll cs
  | [] => rfl
  | c :: cs => by rw [mapAll, heightAll, height_map c, heightAll_map cs, heightAll]
end

mutual
theorem toSyntax_map : ∀ {t : ParseTree}, (∀ a ∈ t.yield, SyntaxTree.ofToken (f a) = .ofToken a) →
    (t.map f).toSyntax = t.toSyntax
  | leaf t, h => h t List.mem_cons_self
  | node r cs, h => by rw [map, toSyntax, toSyntaxAll_map h, toSyntax]

theorem toSyntaxAll_map : ∀ {cs : List ParseTree},
    (∀ a ∈ yieldAll cs, SyntaxTree.ofToken (f a) = .ofToken a) →
      toSyntaxAll (mapAll f cs) = toSyntaxAll cs
  | [], _ => rfl
  | c :: cs, h => by
    rw [yieldAll, List.forall_mem_append] at h
    rw [mapAll, toSyntaxAll, toSyntax_map h.1, toSyntaxAll_map h.2, toSyntaxAll]
end

theorem symbol_map {t : ParseTree} (h : ∀ a ∈ t.yield, (f a).kind = a.kind) :
    (t.map f).symbol = t.symbol := by
  cases t with
  | leaf a => exact congrArg GrammarSymbol.token (h a List.mem_cons_self)
  | node r cs => rfl

theorem derives_map {t : ParseTree} (h : ∀ a ∈ t.yield, (f a).kind = a.kind) (ht : t.Derives) :
    (t.map f).Derives := by
  induction ht with
  | leaf a => exact .leaf (f a)
  | @node r cs production _ ih =>
    have hc : ∀ c ∈ cs, ∀ a ∈ c.yield, (f a).kind = a.kind := fun c hc a ha =>
      h a (mem_yieldAll.2 ⟨c, hc, ha⟩)
    have hsymbols : (cs.map (map f)).map symbol = cs.map symbol := by
      rw [List.map_map]
      exact List.map_congr_left fun c hcs => symbol_map (hc c hcs)
    rw [map, mapAll_eq]
    refine .node (hsymbols ▸ production) fun d hd => ?_
    obtain ⟨c, hcs, rfl⟩ := List.mem_map.1 hd
    exact ih c hcs (hc c hcs)

end ParseTree

theorem IsProgram.map {t : ParseTree} {f : Token → Token} (h : IsProgram t)
    (hf : ∀ a ∈ t.yield, (f a).kind = a.kind) : IsProgram (t.map f) :=
  ⟨ParseTree.derives_map hf h.1, (ParseTree.symbol_map hf).trans h.2⟩

end StatementLang
