import StatementLang.Text.Unprintable
import StatementLang.Text.Extending
/-!
# Quoted text

The form in which tree dumps show the text of a token: between double quotes, with an escape for
every character that would not show as itself. A quoted text is one line and holds no bare quote.
The program has it from the standard library, as the debug form of a text.
-/
namespace StatementLang.Text

/-- The fillers of the Hangul script: letters of which nothing is drawn. -/
def fillers : CodePoints := [(0x115F, 0x1160), (0x3164, 0x3164), (0xFFA0, 0xFFA0)]

/-- The halfwidth voicing marks: they extend the character before them, yet are drawn in a place of
their own. -/
def voicingMarks : CodePoints := [(0xFF9E, 0xFF9F)]

/-- Drawn on the character before it, which would be the opening quote or another character. -/
def drawsOnOther (c : Char) : Bool :=
  Extending.all.contains c.toNat && !voicingMarks.contains c.toNat

/-- Shown as itself between quotes, unless one of the short escapes applies. -/
def showsAsItself (c : Char) : Bool :=
  !drawsOnOther c && !Unprintable.all.contains c.toNat && !fillers.contains c.toNat

/-- Lower-case hexadecimal digits without leading zeros. -/
def hex (n : Nat) : List Char := Nat.toDigits 16 n

/-- The escape of a character by its code point. -/
def codeEscape (c : Char) : List Char := ['\\', 'u', '\x7b'] ++ hex c.toNat ++ ['\x7d']

/-- How one character is written between quotes. -/
def escape (c : Char) : List Char :=
  if c = '"' then ['\\', '"']
  else if c = '\\' then ['\\', '\\']
  else if c = '\t' then ['\\', 't']
  else if c = '\n' then ['\\', 'n']
  else if c = '\r' then ['\\', 'r']
  else if c = '\x00' then ['\\', '0']
  else if showsAsItself c then [c]
  else codeEscape c

/-- A text between quotes. -/
def quoted (s : String) : String := String.ofList ('"' :: s.toList.flatMap escape ++ ['"'])

end StatementLang.Text
