import Mathlib.Data.List.Infix
import StatementLang.Parser.Plan
import StatementLang.Proofs.Grammar.Trees
/-!
# Stages of plans

What is left to do of the plan of an open rule is a stage of that plan (`stages`). The plans are
finite and so are their stages, and what a parser needs to know of them is found by going through
them: above all, that a rule is called without a look at the next token only at the beginning of
a plan or behind a token (`isTake_of_goesDeeper`), so a parser that looks at a token that is in
no program and has once come to a stage where it calls none will not call any more.
-/
namespace StatementLang.Parser

open Item

variable {r : Rule} {c : Choice} {i : Item} {is js todo : List Item} {k : TokenKind}

/-- What may be left of some items when their first has been done. -/
def leftAfter : List Item → List (List Item)
  | [] => []
  | choose c :: is => c.ways.map (· ++ is)
  | _ :: is => [is]

/-- The stages of the plan of a rule: its ends, and the ends of what is picked at its choices. -/
def stages (r : Rule) : List (List Item) :=
  (plan r).tails ++ ((plan r).tails.flatMap leftAfter).flatMap List.tails

theorem plan_mem_stages (r : Rule) : plan r ∈ stages r :=
  List.mem_append_left _ ((List.mem_tails _ _).2 List.suffix_rfl)

/-- Doing the first item leads from stage to stage. -/
theorem mem_stages_of_leftAfter (h : todo ∈ stages r) (his : is ∈ leftAfter todo) :
    is ∈ stages r := by
  have key : ∀ todo ∈ stages r, ∀ is ∈ leftAfter todo, is ∈ stages r := by cases r <;> decide
  exact key _ h _ his

/-! ## Calls -/

def Item.isTake : Item → Bool
  | take _ => true
  | _ => false

/-- Whatever token comes next that is in no program, the items call a rule before anything else. -/
def goesDeeper : List Item → Bool
  | call _ :: _ | choose .assignedValue :: _ => true
  | _ => false

/-- Only behind a token a rule is called without a look at the next. -/
theorem isTake_of_goesDeeper (h : i :: is ∈ stages r) (hd : goesDeeper is = true) :
    i.isTake = true := by
  have key : ∀ todo ∈ stages r, goesDeeper todo.tail = true →
      todo.head?.any Item.isTake = true := by cases r <;> decide
  exact key _ h hd

/-- What is picked for a token that is in no program does not call a rule before anything else. -/
theorem goesDeeper_of_pick (h : choose c :: is ∈ stages r) (hk : k.isTerminal = false)
    (hc : c ≠ .assignedValue) (pick : c.pick k = some js) : goesDeeper (js ++ is) = false := by
  have his : goesDeeper is = false :=
    Bool.eq_false_iff.2 fun hd => by cases isTake_of_goesDeeper h hd
  have key : ∀ k ∈ TokenKind.all, k.isTerminal = false → c.pick k = none ∨ c.pick k = some [] ∨
      c.pick k = some [takeOne .kwElse, call .statementList] := by
    cases c <;> first | exact absurd rfl hc | decide
  rcases key k k.mem_all hk with h | h | h <;> rw [h] at pick <;> cases pick
  · exact his
  · rfl

/-! ## Assignments -/

/-- What is no text begins an expression, as far as an assignment can tell. -/
theorem pick_assignedValue (hk : k.isTerminal = false) :
    Choice.assignedValue.pick k = some [call .expression] := by
  have hne : k ≠ .string := by rintro rfl; cases hk
  simp [Choice.pick, hne]

theorem pick_factorForm (hk : k.isTerminal = false) : Choice.factorForm.pick k = none := by
  have key : ∀ k ∈ TokenKind.all, k.isTerminal = false → Choice.factorForm.pick k = none := by
    decide
  exact key k k.mem_all hk

theorem eq_of_assignedValue_mem_stages (h : choose .assignedValue :: is ∈ stages r) :
    r = .assignment ∧ is = [] := by
  have key : ∀ todo ∈ stages r, todo.head? = some (choose .assignedValue) →
      r = .assignment ∧ todo.tail = [] := by cases r <;> decide
  exact key _ h rfl

/-- A text is taken in an assignment as the assigned value only. -/
theorem eq_of_string_mem {ts : Terminals} (h : take ts :: is ∈ stages .assignment)
    (hts : .string ∈ ts.kinds) : take ts :: is = [takeOne .string] := by
  have key : ∀ todo ∈ stages .assignment, todo = [takeOne .string] ∨
      todo.head? ∈ [some (takeOne .ident), some (takeOne .assign), some (choose .assignedValue),
        some (call .expression), none] := by decide
  rcases key _ h with h | h
  · exact h
  · simp only [List.head?_cons, List.mem_cons, Option.some.injEq, takeOne, take.injEq, reduceCtorEq,
      List.not_mem_nil, or_false] at h
    rcases h with rfl | rfl <;> simp at hts

/-- Only a choice leads there. -/
theorem eq_of_leftAfter_string (h : todo ∈ stages .assignment)
    (his : [takeOne .string] ∈ leftAfter todo) : todo = [choose .assignedValue] := by
  have key : ∀ todo ∈ stages .assignment, [takeOne .string] ∈ leftAfter todo →
      todo = [choose .assignedValue] := by decide
  exact key _ h his

/-- And only a token leads to that choice. -/
theorem eq_of_leftAfter_assignedValue (h : todo ∈ stages .assignment)
    (his : [choose .assignedValue] ∈ leftAfter todo) :
    todo = [takeOne .assign, choose .assignedValue] := by
  have key : ∀ todo ∈ stages .assignment, [choose .assignedValue] ∈ leftAfter todo →
      todo = [takeOne .assign, choose .assignedValue] := by decide
  exact key _ h his

end StatementLang.Parser
