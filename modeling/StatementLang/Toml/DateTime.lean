import StatementLang.Toml.Text
/-!
# TOML dates and times

A date, a time, or a date and a time with or without an offset from universal time. Seconds may be
left out.
-/
namespace StatementLang.Toml

/-- The value of two digits. -/
def readTwoDigits : Reader Nat
  | a :: b :: r =>
    if a.isDigit && b.isDigit then
      some (10 * (a.toNat - '0'.toNat) + (b.toNat - '0'.toNat), r)
    else none
  | _ => none

def expectChar (c : Char) : Reader Unit
  | d :: r => if c = d then some ((), r) else none
  | [] => none

/-- Two digits up to a bound. -/
def readTwoDigitsTo (bound : Nat) (s : List Char) : Option (Nat × List Char) := do
  let (n, r) ← readTwoDigits s
  if n ≤ bound then some (n, r) else none

def isLeapYear (year : Nat) : Bool := year % 4 = 0 && (year % 100 ≠ 0 || year % 400 = 0)

/-- The last day of a month. -/
def daysInMonth (year month : Nat) : Nat :=
  if month = 2 then (if isLeapYear year then 29 else 28)
  else if month ∈ [4, 6, 9, 11] then 30
  else 31

/-- Pass over a date that the calendar has. -/
def readDate (s : List Char) : Option (Unit × List Char) := do
  let (century, s) ← readTwoDigits s
  let (years, s) ← readTwoDigits s
  let (_, s) ← expectChar '-' s
  let (month, s) ← readTwoDigitsTo 12 s
  let (_, s) ← expectChar '-' s
  let (day, s) ← readTwoDigits s
  if 1 ≤ month ∧ 1 ≤ day ∧ day ≤ daysInMonth (100 * century + years) month then some ((), s)
  else none

/-- Pass over the fraction of a second, if there is one. -/
def readFraction : Reader Unit
  | '.' :: r =>
    match r with
    | c :: r => if c.isDigit then some ((), r.dropWhile Char.isDigit) else none
    | [] => none
  | s => some ((), s)

/-- Pass over a time of day; a leap second is allowed for. -/
def readTime (s : List Char) : Option (Unit × List Char) := do
  let (_, s) ← readTwoDigitsTo 23 s
  let (_, s) ← expectChar ':' s
  let (_, s) ← readTwoDigitsTo 59 s
  match s with
  | ':' :: r =>
    let (_, r) ← readTwoDigitsTo 60 r
    readFraction r
  | s => some ((), s)

/-- Pass over an offset, if there is one. -/
def readOffset : Reader Unit
  | [] => some ((), [])
  | c :: r =>
    if c = 'Z' ∨ c = 'z' then some ((), r)
    else if c = '+' ∨ c = '-' then do
      let (_, r) ← readTwoDigitsTo 23 r
      let (_, r) ← expectChar ':' r
      let (_, r) ← readTwoDigitsTo 59 r
      some ((), r)
    else some ((), c :: r)

/-- The whole text is a date, a time, or a date and a time. -/
def isDateTime (s : List Char) : Bool :=
  match readDate s with
  | some (_, []) => true
  | some (_, c :: r) =>
    (c = 'T' || c = 't' || c = ' ') &&
      match (readTime r).bind fun (_, r) => readOffset r with
      | some (_, []) => true
      | _ => false
  | none =>
    match readTime s with
    | some (_, []) => true
    | _ => false

end StatementLang.Toml
