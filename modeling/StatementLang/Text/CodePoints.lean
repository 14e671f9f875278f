/-!
# Sets of code points

A set of code points is written as its ranges in ascending order, ends included.
-/
namespace StatementLang.Text

abbrev CodePoints := List (Nat × Nat)

namespace CodePoints

/-- Membership; the search stops at the first range that begins behind `n`. -/
def contains : CodePoints → Nat → Bool
  | [], _ => false
  | (lo, hi) :: more, n => if n < lo then false else n ≤ hi || contains more n

/-- The ranges ascend and do not overlap. -/
def ascending : CodePoints → Bool
  | (lo, hi) :: (lo', hi') :: more => lo ≤ hi && hi < lo' && ascending ((lo', hi') :: more)
  | [(lo, hi)] => lo ≤ hi
  | [] => true

end CodePoints
end StatementLang.Text
