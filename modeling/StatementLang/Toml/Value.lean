/-!
# TOML values

Values as a document writes them. A table remembers how it came about, because that decides what a
later line may add to it; an array remembers whether it was written as an array of tables.
-/
namespace StatementLang.Toml

/-- How a table came about. -/
inductive TableOrigin where
  /-- by its own header, or as the root of the document -/
  | header
  /-- on the way to the table of a header -/
  | implied
  /-- on the way to the last part of a dotted key, even if a header had led through it before -/
  | dotted
  /-- written between braces -/
  | inline
  deriving DecidableEq, Repr

/-- A floating-point value before rounding: `mantissa * 10 ^ exponent`, an infinity or no number. -/
inductive Real where
  | finite (mantissa exponent : Int)
  | infinite (negative : Bool)
  | nan
  deriving DecidableEq, Repr

inductive Value where
  | string (s : String)
  /-- an integer by its outward form; nothing if it does not stand for a number -/
  | integer (n : Option Int)
  | float (x : Real)
  | boolean (b : Bool)
  /-- a date, a time or both, as written -/
  | dateTime (text : String)
  | array (ofTables : Bool) (items : List Value)
  | table (origin : TableOrigin) (entries : List (String × Value))
  deriving Repr

/-- The entries of a table in the order in which they were added. -/
abbrev Entries := List (String × Value)

/-- The digits of a positive number, counted. -/
def decimalLength (n : Nat) : Nat := (Nat.toDigits 10 n).length

/-- The value lies within the double-precision numbers: its magnitude is below the midpoint between
the largest of them and the next power of two, where rounding would go to infinity. -/
def Real.fitsDouble : Real → Bool
  | finite m e =>
    let order := (decimalLength m.natAbs : Int) + e
    if m = 0 ∨ order ≤ 308 then true
    else if 310 ≤ order then false
    else
      let limit := Nat.pow 2 1024 - Nat.pow 2 970
      let scale := Nat.pow 10 e.natAbs
      if e < 0 then m.natAbs < limit * scale else m.natAbs * scale < limit
  | infinite _ => true
  | nan => true

mutual
/-- Every number in the value is one that some machine type holds: integers of 128 bits, signed or
unsigned, and doubles. -/
def Value.hasMachineNumbers : Value → Bool
  | .integer n => n.any fun n => -Int.pow 2 127 ≤ n && n < Int.pow 2 128
  | .float x => x.fitsDouble
  | .array _ items => allMachineNumbers items
  | .table _ entries => entriesMachineNumbers entries
  | _ => true

/-- The same for all items of an array. -/
def allMachineNumbers : List Value → Bool
  | [] => true
  | v :: vs => v.hasMachineNumbers && allMachineNumbers vs

/-- The same for one entry of a table. -/
def entryMachineNumbers : String × Value → Bool
  | (_, v) => v.hasMachineNumbers

/-- The same for all entries of a table. -/
def entriesMachineNumbers : List (String × Value) → Bool
  | [] => true
  | e :: es => entryMachineNumbers e && entriesMachineNumbers es
end

end StatementLang.Toml
