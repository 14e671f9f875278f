import Mathlib.Data.List.Induction
import StatementLang.Proofs.Parser.Nesting
import StatementLang.Proofs.Tree.Walk
/-!
# Trees from any notices

A builder may be told anything: rules that are never finished, finishes for other rules than those
that are open, reports in between. It keeps one open node for each rule commenced and not yet
finished (`length_openNodes_of_foldlM`), so it has a tree as long as no more rules are finished than
commenced, and the first finish too many stops it (`exists_foldlM_or_tooMany`). The tree goes along
the notices, and in the end closes what is open (`walkAll_of_foldlM`).
-/
namespace StatementLang

open SyntaxTree

namespace Notice

/-- The event that a notice tells. -/
def event? : Notice → Option Event
  | event e => some e
  | report _ _ => none

/-- The events among some notices. -/
def events (ns : List Notice) : List Event := ns.filterMap event?

/-- The number of rules that some notices commence. -/
def commenced (ns : List Notice) : Nat :=
  ns.countP fun
    | event (.commence _) => true
    | _ => false

/-- The number of rules that some notices finish. -/
def finished (ns : List Notice) : Nat :=
  ns.countP fun
    | event (.finish _) => true
    | _ => false

/-- At no time more rules have been finished than commenced. -/
def Covered (ns : List Notice) : Prop := ∀ past, past <+: ns → finished past ≤ commenced past

theorem commenced_append (ns ms : List Notice) :
    commenced (ns ++ ms) = commenced ns + commenced ms := List.countP_append

theorem finished_append (ns ms : List Notice) :
    finished (ns ++ ms) = finished ns + finished ms := List.countP_append

theorem covered_nil : Covered [] := by
  intro past hpast
  rw [List.prefix_nil.1 hpast]
  exact Nat.le_refl _

theorem Covered.concat {ns : List Notice} {n : Notice} (h : Covered ns)
    (hn : finished (ns ++ [n]) ≤ commenced (ns ++ [n])) : Covered (ns ++ [n]) := by
  intro past hpast
  rcases List.prefix_concat_iff.1 hpast with rfl | hpast
  · exact hn
  · exact h past hpast

end Notice

open Notice

namespace TreeBuilder

variable {b b' : TreeBuilder} {n : Notice} {ns : List Notice}

/-! ## Open nodes -/

theorem length_openNodes_add (b : TreeBuilder) (c : SyntaxTree) :
    (b.add c).openNodes.length = b.openNodes.length := by
  obtain ⟨openNodes, root⟩ := b
  cases openNodes <;> rfl

theorem length_openNodes_of_hear (h : b.hear? n = some b') :
    b'.openNodes.length + finished [n] = b.openNodes.length + commenced [n] := by
  cases n with
  | report t expected => cases h; rfl
  | event e =>
    cases e with
    | commence r => cases h; rfl
    | terminal t =>
      cases h
      exact congrArg (· + 0) (length_openNodes_add b _)
    | finish r =>
      obtain ⟨openNodes, root⟩ := b
      cases openNodes with
      | nil => cases h
      | cons node outer =>
        cases h
        rw [length_openNodes_add]
        rfl

/-- Only a finish can stop a builder, and only where no node but the root is open. -/
theorem hear?_eq_none_iff :
    b.hear? n = none ↔ (∃ r, n = .event (.finish r)) ∧ b.openNodes = [] := by
  obtain ⟨openNodes, root⟩ := b
  constructor
  · intro h
    cases n with
    | report t expected => cases h
    | event e =>
      cases e with
      | commence r => cases h
      | terminal t => cases h
      | finish r =>
        cases openNodes with
        | nil => exact ⟨⟨r, rfl⟩, rfl⟩
        | cons node outer => cases h
  · rintro ⟨⟨r, rfl⟩, hnone⟩
    obtain rfl : openNodes = [] := hnone
    rfl

/-- A node is open for each rule commenced and not finished. -/
theorem length_openNodes_of_foldlM (h : ns.foldlM hear? b = some b') :
    b'.openNodes.length + finished ns = b.openNodes.length + commenced ns := by
  induction ns generalizing b with
  | nil => cases h; rfl
  | cons n ns ih =>
    rw [List.foldlM_cons] at h
    obtain ⟨b₁, hhear, hrest⟩ := Option.bind_eq_some_iff.1 h
    have hstep := length_openNodes_of_hear hhear
    have hrun := ih hrest
    rw [← List.singleton_append, finished_append, commenced_append]
    omega

/-! ## What a builder can be told -/

theorem finished_finish (r : Rule) : finished [.event (.finish r)] = 1 := rfl

theorem commenced_finish (r : Rule) : commenced [.event (.finish r)] = 0 := rfl

/-- The notices from `past` on begin with a finish where nothing is left to finish. -/
structure TooMany (past : List Notice) (r : Rule) (b : TreeBuilder) : Prop where
  covered : Covered past
  built : past.foldlM hear? .empty = some b
  stops : b.hear? (.event (.finish r)) = none

theorem TooMany.finished_eq {past : List Notice} {r : Rule} (h : TooMany past r b) :
    finished past = commenced past := by
  have hnone : b.openNodes = [] := (hear?_eq_none_iff.1 h.stops).2
  have hopen := length_openNodes_of_foldlM h.built
  rw [hnone] at hopen
  simpa [TreeBuilder.empty] using hopen

/-- A builder hears all notices, or a finish too many stops it. -/
theorem exists_foldlM_or_tooMany (ns : List Notice) :
    (Covered ns ∧ ∃ b, ns.foldlM hear? .empty = some b) ∨
      ∃ past r rest b, ns = past ++ .event (.finish r) :: rest ∧ TooMany past r b := by
  induction ns using List.reverseRecOn with
  | nil => exact .inl ⟨covered_nil, .empty, rfl⟩
  | append_singleton ns n ih =>
    rcases ih with ⟨hcovered, b, hb⟩ | ⟨past, r, rest, b, rfl, htoo⟩
    · cases hhear : b.hear? n with
      | some b' =>
        have hb' : (ns ++ [n]).foldlM hear? .empty = some b' := by
          rw [List.foldlM_append, hb]
          simp [hhear]
        have hopen := length_openNodes_of_foldlM hb'
        have hle : finished (ns ++ [n]) ≤ commenced (ns ++ [n]) := by
          simp only [TreeBuilder.empty, List.length_nil] at hopen
          omega
        exact .inl ⟨hcovered.concat hle, b', hb'⟩
      | none =>
        obtain ⟨⟨r, rfl⟩, -⟩ := hear?_eq_none_iff.1 hhear
        exact .inr ⟨ns, r, [], b, rfl, hcovered, hb, hhear⟩
    · exact .inr ⟨past, r, rest ++ [n], b, by simp, htoo⟩

theorem exists_foldlM_of_covered (h : Covered ns) : ∃ b, ns.foldlM hear? .empty = some b := by
  rcases exists_foldlM_or_tooMany ns with ⟨-, hb⟩ | ⟨past, r, rest, b, rfl, htoo⟩
  · exact hb
  · have hpre : past ++ [.event (.finish r)] <+: past ++ .event (.finish r) :: rest :=
      ⟨rest, by simp⟩
    have hle := h _ hpre
    rw [finished_append, commenced_append, finished_finish, commenced_finish,
      htoo.finished_eq] at hle
    omega

theorem TooMany.foldlM_eq_none {past : List Notice} {r : Rule} (h : TooMany past r b)
    (rest : List Notice) :
    (past ++ .event (.finish r) :: rest).foldlM hear? .empty = none := by
  rw [List.foldlM_append, h.built]
  show (b.hear? (.event (.finish r))).bind _ = none
  rw [h.stops]
  rfl

/-! ## The walk through what is built -/

/-- Reports add nothing. -/
theorem foldlM_hear_eq (b : TreeBuilder) (ns : List Notice) :
    ns.foldlM hear? b = (Notice.events ns).foldlM step? b := by
  induction ns generalizing b with
  | nil => rfl
  | cons n ns ih =>
    cases n with
    | event e =>
      show (b.step? e).bind _ = (b.step? e).bind _
      exact congrArg _ (funext fun b' => ih b')
    | report t expected => exact ih b

/-- A builder has the children of the root, and reading them goes along the notices. -/
theorem walkAll_of_foldlM (h : ns.foldlM hear? .empty = some b) :
    walkAll (closeAll b.root b.openNodes []).reverse =
      (Notice.events ns).map Event.mark ++
        List.replicate (commenced ns - finished ns) .leave := by
  have hopen := length_openNodes_of_foldlM h
  have hcount : b.openNodes.length = commenced ns - finished ns := by
    simp only [TreeBuilder.empty, List.length_nil] at hopen
    omega
  rw [foldlM_hear_eq] at h
  have hwalk := walk_of_foldlM h
  have hchildren : walkAll b.root.reverse ++ walkOpen b.openNodes =
      (Notice.events ns).map Event.mark := (List.cons.inj hwalk).2
  rw [walkAll_closeAll, hchildren, hcount]
  simp [walkAll]

end TreeBuilder

open TreeBuilder

theorem SyntaxTree.ofNotices?_eq (ns : List Notice) :
    ofNotices? ns = ofEvents? (Notice.events ns) := by
  rw [ofNotices?, ofEvents?, foldlM_hear_eq]

theorem Notice.events_notices {σ : Type} (p : Parse σ) : Notice.events p.notices = p.events := by
  have hevents : Notice.events (p.events.map .event) = p.events :=
    List.filterMap_map.trans List.filterMap_some
  rw [Parse.notices, Notice.events, List.filterMap_append]
  cases p.verdict with
  | accepted => exact (List.append_nil _).trans hevents
  | rejected f => exact (List.append_nil _).trans hevents

/-- A report adds nothing to the tree of a parse. -/
theorem ofNotices?_notices {σ : Type} (p : Parse σ) :
    SyntaxTree.ofNotices? p.notices = SyntaxTree.ofEvents? p.events := by
  rw [SyntaxTree.ofNotices?_eq, Notice.events_notices]

/-- A parse never tells one finish too many. -/
theorem Parser.covered_notices {σ : Type} [TokenFeed σ] (f : σ) : Covered (parse f).notices := by
  rcases exists_foldlM_or_tooMany (parse f).notices with
    ⟨hcovered, -⟩ | ⟨past, r, rest, b, hns, htoo⟩
  · exact hcovered
  · obtain ⟨rs, hrs⟩ := Parser.exists_openRules f
    obtain ⟨t, ht⟩ := exists_ofEvents?_of_openRules hrs
    rw [← ofNotices?_notices, SyntaxTree.ofNotices?, hns, htoo.foldlM_eq_none] at ht
    cases ht

end StatementLang
