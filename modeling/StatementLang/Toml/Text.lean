/-!
# TOML strings

The four kinds of strings: basic ones with escapes and literal ones without, each on one line or
on several. A string is first cut off at its closing quotes and then decoded.
-/
namespace StatementLang.Toml

/-- Answers with what was read and the text after it, or nothing if the text does not fit. -/
abbrev Reader (α : Type) := List Char → Option (α × List Char)

/-- May stand in a string or a comment: a tab, or no control character. -/
def isTextChar (c : Char) : Bool := c == '\t' || (' ' ≤ c && c != '\x7f')

/-- A space or a tab. -/
def isSpace (c : Char) : Bool := c == ' ' || c == '\t'

def hexValue? (c : Char) : Option Nat :=
  if c.isDigit then some (c.toNat - '0'.toNat)
  else if 'a' ≤ c ∧ c ≤ 'f' then some (c.toNat - 'a'.toNat + 10)
  else if 'A' ≤ c ∧ c ≤ 'F' then some (c.toNat - 'A'.toNat + 10)
  else none

/-- The character whose code point has these hexadecimal digits. -/
def charOfHex? (digits : List Char) : Option Char := do
  let n ← digits.foldlM (fun n c => (hexValue? c).map (16 * n + ·)) 0
  if n.isValidChar then some (Char.ofNat n) else none

/-- The escapes of one character. -/
def shortEscape? : Char → Option Char
  | 'b' => some '\x08'
  | 't' => some '\t'
  | 'n' => some '\n'
  | 'f' => some '\x0c'
  | 'r' => some '\r'
  | 'e' => some '\x1b'
  | '"' => some '"'
  | '\\' => some '\\'
  | _ => none

/-- What a backslash at the end of a line does to the characters that follow it. -/
inductive Folding where
  /-- none is open -/
  | off
  /-- the line has to end, with blanks before that at most -/
  | toLineEnd
  /-- blanks and line ends are dropped -/
  | dropping
  deriving DecidableEq

/-- The text that a basic string stands for, from what is between its quotes. `lines` allows line
ends and folding. -/
def unescape (lines : Bool) : Folding → List Char → Option (List Char)
  | .toLineEnd, [] => none
  | _, [] => some []
  | .toLineEnd, '\n' :: r => unescape lines .dropping r
  | .toLineEnd, '\r' :: '\n' :: r => unescape lines .dropping r
  | .toLineEnd, c :: r => if isSpace c then unescape lines .toLineEnd r else none
  | .dropping, '\r' :: '\n' :: r => unescape lines .dropping r
  | .dropping, '\n' :: r => unescape lines .dropping r
  | .dropping, ' ' :: r => unescape lines .dropping r
  | .dropping, '\t' :: r => unescape lines .dropping r
  | _, '\\' :: 'x' :: a :: b :: r => do
    let c ← charOfHex? [a, b]
    (c :: ·) <$> unescape lines .off r
  | _, '\\' :: 'u' :: a :: b :: c :: d :: r => do
    let c ← charOfHex? [a, b, c, d]
    (c :: ·) <$> unescape lines .off r
  | _, '\\' :: 'U' :: a :: b :: c :: d :: e :: f :: g :: h :: r => do
    let c ← charOfHex? [a, b, c, d, e, f, g, h]
    (c :: ·) <$> unescape lines .off r
  | _, '\\' :: '\n' :: r => if lines then unescape lines .dropping r else none
  | _, '\\' :: '\r' :: '\n' :: r => if lines then unescape lines .dropping r else none
  | _, '\\' :: c :: r =>
    if lines && isSpace c then unescape lines .toLineEnd r
    else do
      let c ← shortEscape? c
      (c :: ·) <$> unescape lines .off r
  | _, '\r' :: '\n' :: r => if lines then ('\n' :: ·) <$> unescape lines .off r else none
  | _, '\n' :: r => if lines then ('\n' :: ·) <$> unescape lines .off r else none
  | _, c :: r => if c != '\\' && isTextChar c then (c :: ·) <$> unescape lines .off r else none

/-- The text that a literal string stands for. -/
def plain (lines : Bool) : List Char → Option (List Char)
  | [] => some []
  | '\r' :: '\n' :: r => if lines then ('\n' :: ·) <$> plain lines r else none
  | '\n' :: r => if lines then ('\n' :: ·) <$> plain lines r else none
  | c :: r => if isTextChar c then (c :: ·) <$> plain lines r else none

/-- Cut at the closing quote `q`; where `escapes` holds, a backslash shields the next character. -/
def untilQuote (q : Char) (escapes : Bool) : Reader (List Char)
  | [] => none
  | '\n' :: _ => none
  | c :: r =>
    if c = q then some ([], r)
    else if escapes && c = '\\' then
      match r with
      | [] => none
      | d :: r => (untilQuote q escapes r).map fun (s, r) => (c :: d :: s, r)
    else (untilQuote q escapes r).map fun (s, r) => (c :: s, r)

/-- Cut at three closing quotes; up to two more right before them belong to the string. -/
def untilTriple (q : Char) (escapes : Bool) : Reader (List Char)
  | [] => none
  | c :: r =>
    if c = q ∧ r.take 2 = [q, q] then
      let after := r.drop 2
      let extra := (after.take 2).takeWhile (· = q)
      some (extra, after.drop extra.length)
    else if escapes && c = '\\' then
      match r with
      | [] => none
      | d :: r => (untilTriple q escapes r).map fun (s, r) => (c :: d :: s, r)
    else (untilTriple q escapes r).map fun (s, r) => (c :: s, r)

/-- A line end right after three opening quotes is no part of the string. -/
def dropFirstLineEnd : List Char → List Char
  | '\n' :: r => r
  | '\r' :: '\n' :: r => r
  | s => s

/-- A string on one line. -/
def readLineString : Reader String
  | '"' :: r => do
    let (raw, rest) ← untilQuote '"' true r
    return (String.ofList (← unescape false .off raw), rest)
  | '\'' :: r => do
    let (raw, rest) ← untilQuote '\'' false r
    return (String.ofList (← plain false raw), rest)
  | _ => none

/-- A string of any kind. -/
def readString : Reader String
  | '"' :: '"' :: '"' :: r => do
    let (raw, rest) ← untilTriple '"' true r
    return (String.ofList (← unescape true .off (dropFirstLineEnd raw)), rest)
  | '\'' :: '\'' :: '\'' :: r => do
    let (raw, rest) ← untilTriple '\'' false r
    return (String.ofList (← plain true (dropFirstLineEnd raw)), rest)
  | s => readLineString s

end StatementLang.Toml
