import StatementLang.Toml.Value
import StatementLang.Toml.DateTime
/-!
# TOML scalars without quotes

Booleans, integers, floating-point numbers, dates and times, each recognised from its whole text.

An integer is recognised more widely than it is read: behind an underscore there may stand what is
no decimal digit. Such an integer stands for no number, and that is a fault only of the reader who
asks for the number.
-/
namespace StatementLang.Toml

/-- Digits with single underscores between them; the answer leaves the underscores out. -/
def digitRun? (isDigit : Char → Bool) : List Char → Option (List Char)
  | [] => none
  | [c] => if isDigit c then some [c] else none
  | c :: '_' :: r => if isDigit c then (c :: ·) <$> digitRun? isDigit r else none
  | c :: r => if isDigit c then (c :: ·) <$> digitRun? isDigit r else none

/-- The number that digits stand for in base `base`. -/
def natOfDigits (base : Nat) (ds : List Char) : Nat :=
  ds.foldl (fun n c => base * n + (hexValue? c).getD 0) 0

/-- Decimal digits without a leading zero. -/
def decimalRun? (s : List Char) : Option (List Char) :=
  match digitRun? Char.isDigit s with
  | some ('0' :: _ :: _) => none
  | r => r

/-- A leading sign, and whether it is a minus. -/
def splitSign : List Char → Bool × List Char
  | '-' :: r => (true, r)
  | '+' :: r => (false, r)
  | s => (false, s)

def applySign (negative : Bool) (n : Nat) : Int := if negative then -(n : Int) else n

/-- The parts of a text between its underscores. -/
def underscoreParts (s : List Char) : List (List Char) := s.splitOn '_'

def isHexDigit (c : Char) : Bool := (hexValue? c).isSome

/-- Every underscore stands between hexadecimal digits. -/
def underscoresSit (s : List Char) : Bool :=
  let parts := underscoreParts s
  parts.tail.all (·.head?.any isHexDigit) && parts.dropLast.all (·.getLast?.any isHexDigit)

/-- The outward form of a decimal integer: a sign at most, digits without a leading zero, and from
the first underscore on anything that makes no number with a fraction or an exponent of it. -/
def hasDecimalForm (s : List Char) : Bool :=
  let digits := (splitSign s).2
  match digits.dropWhile Char.isDigit with
  | [] => digits == ['0'] || digits.head?.any (· != '0')
  | c :: r =>
    c == '_' && digits.head? != some '0' && r.all (fun c => !".eE ".toList.contains c) &&
      underscoresSit s

/-- The number that a sign at most and decimal digits stand for. -/
def decimal? (s : List Char) : Option Int :=
  let (negative, ds) := splitSign s
  if ds.isEmpty || !ds.all Char.isDigit then none
  else some (applySign negative (natOfDigits 10 ds))

/-- The number behind the prefix of a base. There may be no digits, and then there is no number. -/
def based? (base : Nat) (isDigit : Char → Bool) (s : List Char) : Option (Option Int) :=
  if s.isEmpty then some none
  else (digitRun? isDigit s).map fun ds => some (natOfDigits base ds)

/-- An integer: decimal with or without a sign, or with a prefix for base 16, 8 or 2. -/
def integer? : List Char → Option (Option Int)
  | '0' :: 'x' :: r => based? 16 isHexDigit r
  | '0' :: 'o' :: r => based? 8 (fun c => '0' ≤ c && c ≤ '7') r
  | '0' :: 'b' :: r => based? 2 (fun c => c == '0' || c == '1') r
  | s => if hasDecimalForm s then some (decimal? (s.filter (· != '_'))) else none

def isExponentMark (c : Char) : Bool := c == 'e' || c == 'E'

/-- The exponent of a floating-point number, 0 where there is none. -/
def exponent? : List Char → Option Int
  | [] => some 0
  | _ :: r =>
    let (negative, r) := splitSign r
    (digitRun? Char.isDigit r).map fun ds => applySign negative (natOfDigits 10 ds)

/-- A floating-point number: `inf`, `nan`, or a decimal integer with a fraction or an exponent. -/
def real? (s : List Char) : Option Real :=
  let (negative, r) := splitSign s
  if r = ['i', 'n', 'f'] then some (.infinite negative)
  else if r = ['n', 'a', 'n'] then some .nan
  else do
    let whole ← decimalRun? (r.takeWhile fun c => c != '.' && !isExponentMark c)
    match r.dropWhile fun c => c != '.' && !isExponentMark c with
    | [] => none
    | '.' :: r =>
      let fraction ← digitRun? Char.isDigit (r.takeWhile fun c => !isExponentMark c)
      let e ← exponent? (r.dropWhile fun c => !isExponentMark c)
      return .finite (applySign negative (natOfDigits 10 (whole ++ fraction))) (e - fraction.length)
    | r => return .finite (applySign negative (natOfDigits 10 whole)) (← exponent? r)

/-- The value with a text, if it is one of these. -/
def scalar? (s : List Char) : Option Value :=
  if s = ['t', 'r', 'u', 'e'] then some (.boolean true)
  else if s = ['f', 'a', 'l', 's', 'e'] then some (.boolean false)
  else if isDateTime s then some (.dateTime (String.ofList s))
  else (integer? s).map .integer <|> (real? s).map .float

/-- Ends a scalar, whatever comes after it. -/
def endsScalar (c : Char) : Bool :=
  c == '\r' || c == '\n' || c == ',' || c == '=' || c == '#' || c == '[' || c == ']' ||
    c == '\x7b' || c == '\x7d' || c == '"' || c == '\''

/-- The text of a scalar and what comes after it. Blanks belong to the text if another word follows
them, as between a date and a time; `blanks` are those just passed. -/
def splitScalar : (blanks : List Char) → List Char → List Char × List Char
  | blanks, [] => ([], blanks)
  | blanks, c :: r =>
    if isSpace c then splitScalar (blanks ++ [c]) r
    else if endsScalar c || (c == '.' && !blanks.isEmpty) then ([], blanks ++ c :: r)
    else
      let (text, rest) := splitScalar [] r
      (blanks ++ c :: text, rest)

/-- A scalar at the front of a text. -/
def readScalar (s : List Char) : Option (Value × List Char) :=
  let (text, rest) := splitScalar [] s
  (scalar? text).map (·, rest)

end StatementLang.Toml
