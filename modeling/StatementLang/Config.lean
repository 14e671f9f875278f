import StatementLang.Settings
import StatementLang.Toml.Reader
import StatementLang.FileSystem
/-!
# Configuration files

A configuration file is a TOML document whose table `output` may set the format, the indentation and
the showing of lines. Keys that mean nothing here are passed over, but what is set has to be of the
right type, or else the file as a whole is malformed. A file that is asked for by name has to be
there and in order; the files that are looked for without being asked for may be neither.

The warning that the program writes to its log when it passes over a file of the working directory
is left out, and so is what the TOML library says about a malformed document: only that it is
malformed is known here.
-/
namespace StatementLang

/-- What a configuration file sets (`OutputSection`). -/
structure FileSettings where
  format : Option DumpFormat
  indent : Option UInt64
  showLines : Option Bool
  deriving DecidableEq, Repr

/-- The settings with what a file sets (`from_file`). -/
def OutputSettings.configured (s : OutputSettings) (f : FileSettings) : OutputSettings where
  format := f.format.getD s.format
  indent := f.indent.getD s.indent
  showLines := f.showLines.getD s.showLines

namespace FileSettings

open Toml

/-- Nothing is set. -/
def unset : FileSettings := ⟨none, none, none⟩

/-- A format by its name; or as the only key of a table, with an empty table or array under it. -/
def format? : Value → Option DumpFormat
  | .string s => DumpFormat.ofName? s
  | .table _ [(k, .table _ [])] => DumpFormat.ofName? k
  | .table _ [(k, .array _ [])] => DumpFormat.ofName? k
  | _ => none

/-- An indentation: a number that 64 bits hold without a sign. -/
def indent? : Value → Option UInt64
  | .integer (some n) =>
    if 0 ≤ n ∧ n.toNat < UInt64.size then some (UInt64.ofNat n.toNat) else none
  | _ => none

def showLines? : Value → Option Bool
  | .boolean b => some b
  | _ => none

/-- What the settings are after one more entry of the table `output`. -/
def withEntry (f : FileSettings) : String × Value → Option FileSettings
  | ("format", v) => (format? v).map fun x => { f with format := some x }
  | ("indent", v) => (indent? v).map fun x => { f with indent := some x }
  | ("show_lines", v) => (showLines? v).map fun x => { f with showLines := some x }
  | (_, v) => if v.hasMachineNumbers then some f else none

/-- What `output` sets: a table by its keys, an array by the first three places, format, indentation
and lines, all of which it has to have. A date or time sets nothing. -/
def ofValue? : Value → Option FileSettings
  | .table _ es => es.foldlM withEntry unset
  | .array _ (f :: i :: l :: _) => do
    return ⟨some (← format? f), some (← indent? i), some (← showLines? l)⟩
  | .dateTime _ => some unset
  | _ => none

/-- What the root table of a document sets (`ConfigFile`). -/
def ofRoot? (root : Entries) : Option FileSettings := do
  let others := root.filter fun e => e.1 != "output"
  if others.all fun e => e.2.hasMachineNumbers then
    match root.lookup "output" with
    | some v => ofValue? v
    | none => some unset
  else none

/-- What the contents of a file set, or nothing if they are malformed. -/
def read? (contents : String) : Option FileSettings := Toml.read? contents >>= ofRoot?

end FileSettings

/-- The settings in use, and the file from which they come if there is one. -/
structure Config where
  path : Option String
  output : OutputSettings
  deriving DecidableEq, Repr

namespace Config

/-- No file is used. -/
def standard : Config := ⟨none, .standard⟩

/-- The settings of a file, or nothing if its contents are malformed. -/
def ofText? (path : Option String) (contents : String) : Option Config :=
  (FileSettings.read? contents).map fun f => ⟨path, OutputSettings.standard.configured f⟩

/-- The settings of a file. A malformed file sets nothing, but counts as used (`from_contents`). -/
def ofText (path : Option String) (contents : String) : Config :=
  (ofText? path contents).getD ⟨path, .standard⟩

/-- The names under which a configuration file is looked for, the first choice first
(`CONFIG_FILES`). -/
def fileNames : List String := ["descent.toml", ".descent.toml"]

/-- The first of some names that is the name of a file (`find_config_file`). -/
def firstFile? {m : Type → Type} [Monad m] (fs : FileSystem m) : List String → m (Option String)
  | [] => pure none
  | name :: names => do if ← fs.isFile name then pure (some name) else firstFile? fs names

/-- The settings of the working directory. A file that cannot be read sets nothing, but counts as
used (`load`). -/
def discover {m : Type → Type} [Monad m] (fs : FileSystem m) : m Config := do
  match ← firstFile? fs fileNames with
  | none => pure standard
  | some name =>
    match ← fs.readText name with
    | .ok contents => pure (ofText (some name) contents)
    | .error _ => pure ⟨some name, .standard⟩

/-- Why a file that was asked for gives no settings. -/
inductive Fault where
  | unreadable (path : String) (cause : ReadFault)
  | malformed (path : String)
  deriving DecidableEq, Repr

/-- What failed, without its cause. -/
def Fault.context : Fault → String
  | unreadable path _ => "failed to read config " ++ path
  | malformed path => "failed to parse config " ++ path

/-- What failed, with its cause if that is known. -/
def Fault.message : Fault → String
  | unreadable path cause => (unreadable path cause).context ++ ": " ++ cause.message
  | malformed path => (malformed path).context

/-- The settings of a file that was asked for (`load_explicit`). -/
def ofFile {m : Type → Type} [Monad m] (fs : FileSystem m) (path : String) :
    m (Except Fault Config) := do
  match ← fs.readText path with
  | .error cause => pure (.error (.unreadable path cause))
  | .ok contents =>
    match ofText? (some path) contents with
    | some c => pure (.ok c)
    | none => pure (.error (.malformed path))

end Config
end StatementLang
