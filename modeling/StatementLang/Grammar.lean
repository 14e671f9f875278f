import StatementLang.Event
/-!
# The grammar

The grammar of the statement language as a relation between rules and their right-hand sides, and
derivation trees over it. Nothing here is shaped like a parser: `Production` lists the right-hand
sides, `Derives` says which trees they allow, and `yield`, `height` and `events` read a tree as its
tokens, its nesting of rules and its parse events.

Sums, products and argument lists nest to the right; a statement list is flat. There is no empty
statement and no empty argument list.
-/
namespace StatementLang

/-- A right-hand side is a list of these. -/
inductive GrammarSymbol where
  | token (kind : TokenKind)
  | rule (rule : Rule)
  deriving DecidableEq, Repr

open GrammarSymbol in
/-- The right-hand sides of each rule. -/
inductive Production : Rule → List GrammarSymbol → Prop
  | statementPart :
      Production .statementPart [token .kwBegin, rule .statementList, token .kwEnd]
  | statementList (more : Nat) :
      Production .statementList
        (rule .statement :: (List.replicate more [token .semicolon, rule .statement]).flatten)
  | statement {r : Rule}
      (form : r ∈ [.assignment, .ifStatement, .whileStatement, .procedureCall, .untilStatement,
        .forStatement]) :
      Production .statement [rule r]
  | assignText : Production .assignment [token .ident, token .assign, token .string]
  | assignValue : Production .assignment [token .ident, token .assign, rule .expression]
  | ifThen :
      Production .ifStatement
        [token .kwIf, rule .condition, token .kwThen, rule .statementList, token .kwEnd,
         token .kwIf]
  | ifThenElse :
      Production .ifStatement
        [token .kwIf, rule .condition, token .kwThen, rule .statementList, token .kwElse,
         rule .statementList, token .kwEnd, token .kwIf]
  | whileLoop :
      Production .whileStatement
        [token .kwWhile, rule .condition, token .kwLoop, rule .statementList, token .kwEnd,
         token .kwLoop]
  | doUntil :
      Production .untilStatement
        [token .kwDo, rule .statementList, token .kwUntil, rule .condition]
  | forLoop :
      Production .forStatement
        [token .kwFor, token .lparen, rule .assignment, token .semicolon, rule .condition,
         token .semicolon, rule .assignment, token .rparen, token .kwDo, rule .statementList,
         token .kwEnd, token .kwLoop]
  | call :
      Production .procedureCall
        [token .kwCall, token .ident, token .lparen, rule .argumentList, token .rparen]
  | lastArgument : Production .argumentList [token .ident]
  | argument : Production .argumentList [token .ident, token .comma, rule .argumentList]
  | condition {k : TokenKind} (operand : k ∈ [.ident, .number, .string]) :
      Production .condition [token .ident, rule .conditionalOperator, token k]
  | conditionalOperator {k : TokenKind}
      (relational : k ∈ [.greater, .greaterEqual, .equal, .notEqual, .less, .lessEqual]) :
      Production .conditionalOperator [token k]
  | lastTerm : Production .expression [rule .term]
  | sum {k : TokenKind} (sign : k ∈ [.plus, .minus]) :
      Production .expression [rule .term, token k, rule .expression]
  | lastFactor : Production .term [rule .factor]
  | product {k : TokenKind} (sign : k ∈ [.star, .slash]) :
      Production .term [rule .factor, token k, rule .term]
  | operand {k : TokenKind} (operand : k ∈ [.ident, .number]) : Production .factor [token k]
  | group : Production .factor [token .lparen, rule .expression, token .rparen]

/-- A tree with tokens at its leaves and rules at its nodes. -/
inductive ParseTree where
  | leaf (token : Token)
  | node (rule : Rule) (children : List ParseTree)

namespace ParseTree

/-- What a tree stands for in a right-hand side. -/
def symbol : ParseTree → GrammarSymbol
  | leaf t => .token t.kind
  | node r _ => .rule r

/-- Every node is made by a production. -/
inductive Derives : ParseTree → Prop
  | leaf (t : Token) : Derives (leaf t)
  | node {r : Rule} {cs : List ParseTree} (production : Production r (cs.map symbol))
      (children : ∀ c ∈ cs, Derives c) : Derives (node r cs)

mutual
/-- The tokens at the leaves, from left to right. -/
def yield : ParseTree → List Token
  | leaf t => [t]
  | node _ cs => yieldAll cs

/-- The tokens at the leaves of a row of trees. -/
def yieldAll : List ParseTree → List Token
  | [] => []
  | c :: cs => c.yield ++ yieldAll cs
end

mutual
/-- The number of rules on the longest way down. -/
def height : ParseTree → Nat
  | leaf _ => 0
  | node _ cs => heightAll cs + 1

/-- The height of the highest of a row of trees. -/
def heightAll : List ParseTree → Nat
  | [] => 0
  | c :: cs => max c.height (heightAll cs)
end

mutual
/-- The events that tell the tree: each node commences, tells its children and finishes. -/
def events : ParseTree → List Event
  | leaf t => [.terminal t]
  | node r cs => .commence r :: (eventsAll cs ++ [.finish r])

/-- The events that tell a row of trees. -/
def eventsAll : List ParseTree → List Event
  | [] => []
  | c :: cs => c.events ++ eventsAll cs
end

mutual
theorem terminals_events : ∀ t : ParseTree, Event.terminals t.events = t.yield
  | leaf _ => rfl
  | node r cs => by
    have := terminals_eventsAll cs
    simp only [events, yield, Event.terminals, List.filterMap_cons, List.filterMap_append]
      at this ⊢
    simp [this]

theorem terminals_eventsAll : ∀ cs : List ParseTree, Event.terminals (eventsAll cs) = yieldAll cs
  | [] => rfl
  | c :: cs => by
    simp [eventsAll, yieldAll, Event.terminals_append, terminals_events c, terminals_eventsAll cs]
end

end ParseTree

/-- A program: a derivation tree of the statement part. -/
def IsProgram (t : ParseTree) : Prop := t.Derives ∧ t.symbol = .rule .statementPart

end StatementLang
