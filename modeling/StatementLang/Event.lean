import StatementLang.Token
import StatementLang.Rule
/-!
# Parse events

A parse is told as a list of events: a rule is commenced, terminals are accepted inside it, and the
rule is finished. `openRules` reads such a list with a stack.
-/
namespace StatementLang

inductive Event where
  | commence (rule : Rule)
  | terminal (token : Token)
  | finish (rule : Rule)
  deriving DecidableEq, Repr

namespace Event

/-- The terminals of a list of events, in order. -/
def terminals (es : List Event) : List Token :=
  es.filterMap fun
    | .terminal t => some t
    | _ => none

/-- The rules that are open after some events, innermost first, if `outer` were open before them.
There is no answer if a rule is finished that is not the innermost open one, or if a terminal stands
outside every rule. -/
def openRules : List Rule → List Event → Option (List Rule)
  | outer, [] => some outer
  | outer, .commence r :: es => openRules (r :: outer) es
  | r :: outer, .terminal _ :: es => openRules (r :: outer) es
  | [], .terminal _ :: _ => none
  | r :: outer, .finish s :: es => if r = s then openRules outer es else none
  | [], .finish _ :: _ => none

@[simp] theorem terminals_append (es fs : List Event) :
    terminals (es ++ fs) = terminals es ++ terminals fs := List.filterMap_append

theorem openRules_append (outer : List Rule) (es fs : List Event) :
    openRules outer (es ++ fs) = (openRules outer es).bind (openRules · fs) := by
  fun_induction openRules outer es with
  | case1 => rfl
  | case2 outer r es ih => simp [openRules, ih]
  | case3 r outer t es ih => simp [openRules, ih]
  | case4 => rfl
  | case5 outer s es ih => simp [openRules, ih]
  | case6 r outer s es h => simp [openRules, h]
  | case7 => rfl

end Event
end StatementLang
