import StatementLang.Token
import StatementLang.Rule
/-!
# Plans

What a parser with one token of lookahead does for each rule. The plan of a rule is a list of items:
take a token, call a rule, or choose how to go on by the kind of the next token. Every choice is
settled by that kind alone.

A plan is the production that the program hands to `rule`, in the operation that has the name of the
rule (`statement_part` to `factor`), as data: `take` is a call of `accept`, `call` the call of
another such operation, and `choose` a branch or a loop on the next kind (`at`, `current`).

`lead` bounds the steps from an item to the next attempt to take a token; it is what keeps the
parser from calling rules for ever.
-/
namespace StatementLang.Parser

/-- The kinds of which one has to come next. There is one, and it is not the end of the input. -/
structure Terminals where
  kinds : List TokenKind
  ne_nil : kinds ≠ [] := by decide
  eof_not_mem : TokenKind.eof ∉ kinds := by decide
  deriving DecidableEq, Repr

/-- The points of a plan at which the next token decides: `statementForm` in `statement`,
`moreStatements` for the loop of `statement_list`, `assignedValue` in `assignment_statement`,
`elsePart` in `if_statement`, `moreArguments` in `argument_list`, `moreSummands` in `expression`,
`moreFactors` in `term` and `factorForm` in `factor`. -/
inductive Choice where
  | statementForm | moreStatements | assignedValue | elsePart | moreArguments
  | moreSummands | moreFactors | factorForm
  deriving DecidableEq, Repr

/-- Take a token of one of some kinds, call a rule, or make a choice. -/
inductive Item where
  | take (terminals : Terminals)
  | call (rule : Rule)
  | choose (choice : Choice)
  deriving DecidableEq, Repr

open Item

/-- Take a token of one kind. -/
def takeOne (k : TokenKind) (h : k ≠ .eof := by decide) : Item :=
  take { kinds := [k], ne_nil := List.cons_ne_nil k [], eof_not_mem := by simpa using h.symm }

/-- The operators of a condition, one of which has to come (`is_relational_op`). -/
def relational : Terminals := { kinds := TokenKind.all.filter TokenKind.isRelational }

@[simp] theorem kinds_relational :
    relational.kinds = [.greater, .greaterEqual, .equal, .notEqual, .less, .lessEqual] := rfl

/-- How to go on when the next token is of kind `k`; nothing if no way fits. -/
def Choice.pick : Choice → TokenKind → Option (List Item)
  | statementForm, k =>
    match k with
    | .ident => some [call .assignment]
    | .kwIf => some [call .ifStatement]
    | .kwWhile => some [call .whileStatement]
    | .kwCall => some [call .procedureCall]
    | .kwDo => some [call .untilStatement]
    | .kwFor => some [call .forStatement]
    | _ => none
  | moreStatements, k =>
    if k = .semicolon then some [takeOne .semicolon, call .statement, choose moreStatements]
    else some []
  | assignedValue, k =>
    if k = .string then some [takeOne .string] else some [call .expression]
  | elsePart, k =>
    if k = .kwEnd then some [] else some [takeOne .kwElse, call .statementList]
  | moreArguments, k =>
    if k = .comma then some [takeOne .comma, call .argumentList] else some []
  | moreSummands, k =>
    if k = .plus ∨ k = .minus then some [take { kinds := [.plus, .minus] }, call .expression]
    else some []
  | moreFactors, k =>
    if k = .star ∨ k = .slash then some [take { kinds := [.star, .slash] }, call .term]
    else some []
  | factorForm, k =>
    if k = .lparen then some [takeOne .lparen, call .expression, takeOne .rparen]
    else if k = .ident ∨ k = .number then some [take { kinds := [.ident, .number] }]
    else none

/-- All ways that a choice has. -/
def Choice.ways : Choice → List (List Item)
  | statementForm =>
    [[call .assignment], [call .ifStatement], [call .whileStatement], [call .procedureCall],
     [call .untilStatement], [call .forStatement]]
  | moreStatements => [[], [takeOne .semicolon, call .statement, choose moreStatements]]
  | assignedValue => [[takeOne .string], [call .expression]]
  | elsePart => [[], [takeOne .kwElse, call .statementList]]
  | moreArguments => [[], [takeOne .comma, call .argumentList]]
  | moreSummands => [[], [take { kinds := [.plus, .minus] }, call .expression]]
  | moreFactors => [[], [take { kinds := [.star, .slash] }, call .term]]
  | factorForm =>
    [[take { kinds := [.ident, .number] }], [takeOne .lparen, call .expression, takeOne .rparen]]

theorem mem_ways_of_pick {c : Choice} {k : TokenKind} {js : List Item} (h : c.pick k = some js) :
    js ∈ c.ways := by
  cases c <;> simp only [Choice.pick] at h
  case factorForm =>
    split at h
    · cases h; simp [Choice.ways]
    · split at h <;> cases h; simp [Choice.ways]
  all_goals split at h <;> cases h <;> simp [Choice.ways]

/-- What a rule asks for, in order. What a mismatch within it is said to have expected is not part
of the plan: the parser asks the rule. -/
def plan : Rule → List Item
  | .statementPart => [takeOne .kwBegin, call .statementList, takeOne .kwEnd]
  | .statementList => [call .statement, choose .moreStatements]
  | .statement => [choose .statementForm]
  | .assignment => [takeOne .ident, takeOne .assign, choose .assignedValue]
  | .ifStatement =>
    [takeOne .kwIf, call .condition, takeOne .kwThen, call .statementList, choose .elsePart,
     takeOne .kwEnd, takeOne .kwIf]
  | .whileStatement =>
    [takeOne .kwWhile, call .condition, takeOne .kwLoop, call .statementList, takeOne .kwEnd,
     takeOne .kwLoop]
  | .untilStatement => [takeOne .kwDo, call .statementList, takeOne .kwUntil, call .condition]
  | .forStatement =>
    [takeOne .kwFor, takeOne .lparen, call .assignment, takeOne .semicolon, call .condition,
     takeOne .semicolon, call .assignment, takeOne .rparen, takeOne .kwDo, call .statementList,
     takeOne .kwEnd, takeOne .kwLoop]
  | .procedureCall =>
    [takeOne .kwCall, takeOne .ident, takeOne .lparen, call .argumentList, takeOne .rparen]
  | .argumentList => [takeOne .ident, choose .moreArguments]
  | .condition =>
    [takeOne .ident, call .conditionalOperator, take { kinds := [.ident, .number, .string] }]
  | .conditionalOperator => [take relational]
  | .expression => [call .term, choose .moreSummands]
  | .term => [call .factor, choose .moreFactors]
  | .factor => [choose .factorForm]

/-! ## Steps before a token is taken -/

/-- The steps from a call of the rule to its first attempt to take a token. -/
def ruleLead : Rule → Nat
  | .statement => 3
  | .statementList => 4
  | .factor => 2
  | .term => 3
  | .expression => 4
  | _ => 1

/-- The steps from a choice to the next attempt to take a token within what it picks. -/
def Choice.lead : Choice → Nat
  | statementForm => 2
  | assignedValue => 5
  | _ => 1

/-- The choice may pick nothing. -/
def Choice.skips : Choice → Bool
  | moreStatements | elsePart | moreArguments | moreSummands | moreFactors => true
  | _ => false

/-- A bound on the steps until a token is taken, when `after` bounds them once the items are
done. -/
def lead : List Item → Nat → Nat
  | [], after => after + 1
  | take _ :: _, _ => 0
  | call r :: _, _ => ruleLead r
  | choose c :: is, after => c.lead + if c.skips then lead is after else 0

theorem lead_plan_lt (r : Rule) (after : Nat) : lead (plan r) after < ruleLead r := by
  cases r <;> simp [plan, lead, ruleLead, takeOne, Choice.lead, Choice.skips]

/-- What a choice picks is nearer to a token than the choice. -/
theorem lead_pick_lt {c : Choice} {k : TokenKind} {js : List Item} (h : c.pick k = some js)
    (is : List Item) (after : Nat) : lead (js ++ is) after < lead (choose c :: is) after := by
  cases c <;> simp only [Choice.pick] at h
  case statementForm => split at h <;> cases h <;> simp [lead, ruleLead, Choice.lead, Choice.skips]
  case factorForm =>
    split at h
    · cases h; simp [lead, takeOne, Choice.lead, Choice.skips]
    · split at h <;> cases h; simp [lead, Choice.lead, Choice.skips]
  case assignedValue =>
    split at h <;> cases h <;> simp [lead, ruleLead, takeOne, Choice.lead, Choice.skips]
  all_goals
    split at h <;> cases h <;>
      simp only [lead, takeOne, Choice.lead, Choice.skips, if_true, List.cons_append,
        List.nil_append] <;> omega

end StatementLang.Parser
