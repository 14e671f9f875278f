import StatementLang.Toml.Scalar
import StatementLang.Toml.Table
/-!
# Reading TOML

From text to the root table. Each reader answers with what it read and the text after it; a loop is
bounded by the length of the text at its start, since every round takes at least one character.

The program leaves the reading of TOML to a library; the modules on TOML are the behaviour of that
library, without its messages.
-/
namespace StatementLang.Toml

def skipSpaces (s : List Char) : List Char := s.dropWhile isSpace

/-- Pass over a line end, or over nothing at the end of the text. -/
def readLineEnd : Reader Unit
  | [] => some ((), [])
  | '\n' :: r => some ((), r)
  | '\r' :: '\n' :: r => some ((), r)
  | _ => none

/-- The end of a line: blanks, a comment if there is one, and the line end. -/
def readRestOfLine (s : List Char) : Option (Unit × List Char) :=
  match skipSpaces s with
  | '#' :: r => readLineEnd (r.dropWhile isTextChar)
  | r => readLineEnd r

/-- Pass over blanks, line ends and comments between the items of a value; `comment` says whether
the text begins inside a comment. -/
def skipBetween (comment : Bool) : List Char → Option (List Char)
  | [] => some []
  | '\r' :: '\n' :: r => skipBetween false r
  | '\n' :: r => skipBetween false r
  | c :: r =>
    if comment then (if isTextChar c then skipBetween true r else none)
    else if isSpace c then skipBetween false r
    else if c = '#' then skipBetween true r
    else some (c :: r)

/-! ## Keys -/

/-- May stand in a key without quotes. -/
def isBareKeyChar (c : Char) : Bool := c.isAlphanum || c == '_' || c == '-'

/-- How deep brackets and braces may nest, and of how many parts a key may consist. -/
def maxNesting : Nat := 80

/-- One part of a key. -/
def readKeyPart (s : List Char) : Option (String × List Char) :=
  match s.takeWhile isBareKeyChar with
  | [] => readLineString s
  | w => some (String.ofList w, s.dropWhile isBareKeyChar)

/-- The parts of a key after its first one, which is `part`; blanks may stand around the dots. -/
def readKeyParts : Nat → String → List Char → Option (Key × List Char)
  | 0, _, _ => none
  | fuel + 1, part, s =>
    match skipSpaces s with
    | '.' :: r => do
      let (next, r) ← readKeyPart (skipSpaces r)
      let (key, r) ← readKeyParts fuel next r
      some (⟨part :: key.path, key.last⟩, r)
    | r => some (⟨[], part⟩, r)

/-- A key, with the blanks after it. -/
def readKey (s : List Char) : Option (Key × List Char) := do
  let (part, r) ← readKeyPart s
  let (key, r) ← readKeyParts (r.length + 1) part r
  if key.path.length < maxNesting then some (key, r) else none

/-- A key, an equals sign and a value; `gap` passes over what may stand around the equals sign. -/
def readEntry (gap : List Char → Option (List Char)) (value : Reader Value) (s : List Char) :
    Option ((Key × Value) × List Char) := do
  let (key, s) ← readKey s
  let (_, s) ← expectChar '=' (← gap s)
  let (v, s) ← value (← gap s)
  some ((key, v), s)

/-! ## Values -/

/-- Items with commas between them up to `close`; one more comma may follow the last item. -/
def readItems {α : Type} (item : Reader α) (close : Char) :
    Nat → List Char → Option (List α × List Char)
  | 0, _ => none
  | fuel + 1, s => do
    match ← skipBetween false s with
    | [] => none
    | c :: r =>
      if c = close then some ([], r)
      else
        let (x, s) ← item (c :: r)
        match ← skipBetween false s with
        | [] => none
        | c :: r =>
          if c = ',' then
            let (xs, r) ← readItems item close fuel r
            some (x :: xs, r)
          else if c = close then some ([x], r)
          else none

/-- A value in which brackets and braces nest at most `depth` deep. Between braces the equals sign
of an entry may stand on a line of its own. -/
def readValue : Nat → List Char → Option (Value × List Char)
  | depth + 1, '[' :: r => do
    let (vs, r) ← readItems (readValue depth) ']' (r.length + 1) r
    some (.array false vs, r)
  | depth + 1, '\x7b' :: r => do
    let entry := readEntry (skipBetween false) (readValue depth)
    let (es, r) ← readItems entry '\x7d' (r.length + 1) r
    let es ← es.foldlM (Entries.addEntry .inline) []
    some (.table .inline es, r)
  | _, '"' :: r => (readString ('"' :: r)).map fun (s, r) => (.string s, r)
  | _, '\'' :: r => (readString ('\'' :: r)).map fun (s, r) => (.string s, r)
  | _, s => readScalar s

/-! ## Documents -/

/-- The header of a table or of an array of tables, without its first bracket. -/
def readHeader : Reader (Bool × Key)
  | '[' :: r => do
    let (key, r) ← readKey (skipSpaces r)
    let (_, r) ← expectChar ']' r
    let (_, r) ← expectChar ']' r
    some ((true, key), r)
  | r => do
    let (key, r) ← readKey (skipSpaces r)
    let (_, r) ← expectChar ']' r
    some ((false, key), r)

/-- The lines of a text as a document. -/
def readDocument : Nat → List Char → Option Document
  | 0, _ => none
  | fuel + 1, s =>
    match skipSpaces s with
    | [] => some ⟨[], []⟩
    | '[' :: r => do
      let ((ofTables, key), r) ← readHeader r
      let (_, r) ← readRestOfLine r
      let d ← readDocument fuel r
      some ⟨[], ⟨ofTables, key, d.top⟩ :: d.sections⟩
    | c :: r =>
      if c = '#' ∨ c = '\n' ∨ c = '\r' then do
        let (_, r) ← readRestOfLine (c :: r)
        readDocument fuel r
      else do
        let (e, r) ← readEntry (some ∘ skipSpaces) (readValue maxNesting) (c :: r)
        let (_, r) ← readRestOfLine r
        let d ← readDocument fuel r
        some ⟨e :: d.top, d.sections⟩

/-- The text without a byte order mark at its front. -/
def dropByteOrderMark : List Char → List Char
  | '\ufeff' :: r => r
  | s => s

/-- The root table of a document, or nothing if the text is no valid document. -/
def read? (contents : String) : Option Entries := do
  let s := dropByteOrderMark contents.toList
  (← readDocument (s.length + 1) s).root?

end StatementLang.Toml
