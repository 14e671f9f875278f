/-!
# Rules

The fifteen rules of the statement language: how dumps call them, what a message says is expected
when one of them fails, and the label of their nodes in tree dumps.
-/
namespace StatementLang

inductive Rule where
  | statementPart | statementList | statement | assignment | ifStatement | whileStatement
  | untilStatement | forStatement | procedureCall | argumentList | condition
  | conditionalOperator | expression | term | factor
  deriving DecidableEq, Repr, Inhabited

namespace Rule

/-- Every rule, in grammar order. -/
def all : List Rule :=
  [statementPart, statementList, statement, assignment, ifStatement, whileStatement,
   untilStatement, forStatement, procedureCall, argumentList, condition, conditionalOperator,
   expression, term, factor]

/-- How event dumps call a rule. -/
def name : Rule → String
  | statementPart => "statement part" | statementList => "statement list"
  | statement => "statement" | assignment => "assignment statement"
  | ifStatement => "if statement" | whileStatement => "while statement"
  | untilStatement => "until statement" | forStatement => "for statement"
  | procedureCall => "procedure statement" | argumentList => "argument list"
  | condition => "condition" | conditionalOperator => "conditional operator"
  | expression => "expression" | term => "term" | factor => "factor"

/-- What a message says is expected when the input stops fitting this rule. -/
def expected : Rule → String
  | statementPart => "statement part" | statementList => "statement list"
  | statement => "statement (identifier, if, while, call, until, for)"
  | assignment => "identifier" | ifStatement => "if" | whileStatement => "while"
  | untilStatement => "until" | forStatement => "for"
  | procedureCall => "call, identifier, (, )" | argumentList => "comma"
  | condition => "identifier, number-constant, string-constant"
  | conditionalOperator => ">, >=, =, !=, <, <=" | expression => "+, -" | term => "*, /"
  | factor => "identifier, number-constant, (, )"

/-- The label of a rule's node in tree dumps (`SyntaxKind`). -/
def label : Rule → String
  | statementPart => "StatementPart" | statementList => "StatementList"
  | statement => "Statement" | assignment => "AssignmentStmt" | ifStatement => "IfStmt"
  | whileStatement => "WhileStmt" | untilStatement => "UntilStmt" | forStatement => "ForStmt"
  | procedureCall => "ProcedureStmt" | argumentList => "ArgumentList"
  | condition => "Condition" | conditionalOperator => "ConditionalOp"
  | expression => "Expression" | term => "Term" | factor => "Factor"

theorem mem_all (r : Rule) : r ∈ all := by cases r <;> decide

theorem name_injective {r s : Rule} (h : r.name = s.name) : r = s := by
  have key : ∀ r ∈ all, ∀ s ∈ all, r.name = s.name → r = s := by decide
  exact key r (mem_all r) s (mem_all s) h

theorem label_injective {r s : Rule} (h : r.label = s.label) : r = s := by
  have key : ∀ r ∈ all, ∀ s ∈ all, r.label = s.label → r = s := by decide
  exact key r (mem_all r) s (mem_all s) h

end Rule
end StatementLang
