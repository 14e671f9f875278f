/-!
# File systems

What the program asks of the place it runs in, and a directory held in memory that answers it. A
path is walked part by part from the working directory; two dots lead one directory up, and above
the working directory there are only directories in which no name is known.
-/
namespace StatementLang

/-- Why a file cannot be read as text. -/
inductive ReadFault where
  | absent
  | notADirectory
  | isADirectory
  | nameTooLong
  | notText
  | other (message : String)
  deriving DecidableEq, Repr

/-- The words for a fault, with the number that the system gives it. -/
def ReadFault.message : ReadFault → String
  | absent => "No such file or directory (os error 2)"
  | notADirectory => "Not a directory (os error 20)"
  | isADirectory => "Is a directory (os error 21)"
  | nameTooLong => "File name too long (os error 36)"
  | notText => "stream did not contain valid UTF-8"
  | other m => m

/-- What can be asked about paths (`read_to_string`, `is_file`). -/
structure FileSystem (m : Type → Type) where
  /-- the text of a file -/
  readText : String → m (Except ReadFault String)
  /-- the path leads to a file and not to a directory -/
  isFile : String → m Bool

/-! ## Directories in memory -/

/-- What a name in a directory stands for: a directory, or a file with its bytes. -/
inductive DirectoryEntry where
  | directory
  | file (bytes : ByteArray)

/-- The entries of a directory and of all directories below it, by the names on the way. -/
structure Directory where
  entries : List (List String × DirectoryEntry)

namespace Directory

/-- What stands at the end of a way. A directory is there also if only something below it is
listed. -/
def get? (d : Directory) (way : List String) : Option DirectoryEntry :=
  match d.entries.lookup way with
  | some e => some e
  | none =>
    if way.isEmpty || d.entries.any fun e => way.isPrefixOf e.1 then some .directory else none

/-- The parts of a path. Parts between adjacent slashes are empty. -/
def pathParts : List Char → List (List Char)
  | [] => [[]]
  | c :: cs =>
    match pathParts cs with
    | [] => [[c]]
    | p :: ps => if c = '/' then [] :: p :: ps else (c :: p) :: ps

/-- Where a walk stands: at the end of a way from the working directory, or above that. -/
inductive Place where
  | inside (way : List String)
  | above
  deriving DecidableEq, Repr

/-- What stands at a place. -/
def at? (d : Directory) : Place → Option DirectoryEntry
  | .inside way => d.get? way
  | .above => some .directory

/-- The place of a name in the directory at a place, if that holds the name. -/
def child? (d : Directory) : Place → String → Option Place
  | .inside way, name => (d.get? (way ++ [name])).map fun _ => .inside (way ++ [name])
  | .above, _ => none

/-- The place of the directory around a place. There is no end to the way up. -/
def Place.parent : Place → Place
  | .inside [] => .above
  | .inside way => .inside way.dropLast
  | .above => .above

/-- The longest name, in bytes. -/
def maxName : Nat := 255

/-- The longest path, in bytes. -/
def maxPath : Nat := 4095

/-- One step of a walk. A part is looked up in a directory; an empty part and a single dot stay
there. -/
def step (d : Directory) (p : Place) (part : String) : Except ReadFault Place :=
  match d.at? p with
  | none => .error .absent
  | some (.file _) => .error .notADirectory
  | some .directory =>
    if part = "" ∨ part = "." then .ok p
    else if part = ".." then .ok p.parent
    else if maxName < part.utf8ByteSize then .error .nameTooLong
    else
      match d.child? p part with
      | some q => .ok q
      | none => .error .absent

/-- What a path leads to. A path from the root of the system starts above the working directory. -/
def resolve (d : Directory) (path : String) : Except ReadFault DirectoryEntry :=
  if path.isEmpty then .error .absent
  else if maxPath < path.utf8ByteSize then .error .nameTooLong
  else do
    let start := if path.toList.head? = some '/' then Place.above else .inside []
    match d.at? (← ((pathParts path.toList).map String.ofList).foldlM d.step start) with
    | some e => .ok e
    | none => .error .absent

/-- The text of a file. -/
def readText (d : Directory) (path : String) : Except ReadFault String := do
  match ← d.resolve path with
  | .directory => .error .isADirectory
  | .file bytes =>
    match String.fromUTF8? bytes with
    | some s => .ok s
    | none => .error .notText

def isFile (d : Directory) (path : String) : Bool :=
  match d.resolve path with
  | .ok (.file _) => true
  | _ => false

/-- A directory as a file system. -/
def fileSystem (d : Directory) : FileSystem Id := ⟨d.readText, d.isFile⟩

end Directory
end StatementLang
