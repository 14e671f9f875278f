import StatementLang.Settings
/-!
# The command line

A command line is a list of words. Options may stand before and after other words, with their value
attached by an equals sign or in the next word; the options `verbose` and `config` are understood
before and after the name of the command. What a command line means does not depend on the order of
its options.

The program declares its options (`Cli`, `Command`) and leaves the reading to a library; what is
written here is the behaviour of that library on this declaration. Its messages are left out: a word
list that names nothing to run has a `Stop`, and the words for it are not modelled.

A value is examined when the word after it has been recognised, so that a word that is not
recognised is reported before a fault in the value before it; and a value right before the name of a
command is examined when all the words of the command have been read. Apart from that the first
problem from the left decides.
-/
namespace StatementLang

/-- What is to be done with a source file (`Command`). -/
inductive Command where
  | parse (file : String) (overrides : Overrides)
  | tokens (file : String)
  deriving DecidableEq, Repr

/-- What a command line asks for (`Cli`). -/
structure CommandLine where
  verbose : Bool
  config : Option String
  command : Command
  deriving DecidableEq, Repr

namespace CommandLine

inductive OptionName where
  | verbose | config | format | indent | lines | help | version
  deriving DecidableEq, Repr

/-- Which options are understood depends on whether the command has been named, and which one. -/
inductive Level where
  | top | parse | tokens
  deriving DecidableEq, Repr

/-- What takes a value: an option, or the place of the source file. -/
inductive Slot where
  | config | format | indent | file
  deriving DecidableEq, Repr

/-- Why a command line names nothing to run. -/
inductive Stop where
  | help
  | version
  | noArguments
  | missingCommand
  | missingFile
  | unknownArgument (word : String)
  | unknownCommand (word : String)
  | repeated (option : OptionName)
  | unneededValue (option : OptionName)
  | missingValue (slot : Slot)
  | emptyPath (slot : Slot)
  | unknownFormat (value : String)
  | badIndent (value : String)
  deriving DecidableEq, Repr

/-- Every option with its long name. -/
def OptionName.all : List (OptionName × String) :=
  [(.verbose, "verbose"), (.config, "config"), (.format, "format"), (.indent, "indent"),
   (.lines, "lines"), (.help, "help"), (.version, "version")]

/-- The options that a level understands. -/
def Level.understands : Level → OptionName → Bool
  | .top, o => o == .verbose || o == .config || o == .help || o == .version
  | .parse, o => o != .version
  | .tokens, o => o == .verbose || o == .config || o == .help

/-- The option with a long name, where it is understood. -/
def Level.long? (level : Level) (name : String) : Option OptionName :=
  ((OptionName.all.find? (·.2 == name)).map (·.1)).filter level.understands

/-- The option with a one-letter name. None of these takes a value. -/
def OptionName.ofLetter? : Char → Option OptionName
  | 'v' => some .verbose
  | 'h' => some .help
  | 'V' => some .version
  | _ => none

/-- The option with a one-letter name, where it is understood. -/
def Level.short? (level : Level) (c : Char) : Option OptionName :=
  (OptionName.ofLetter? c).filter level.understands

/-- The value that an option takes, if it takes one. -/
def OptionName.slot? : OptionName → Option Slot
  | .config => some .config
  | .format => some .format
  | .indent => some .indent
  | _ => none

/-! ## Words -/

/-- A word by its outward form. -/
inductive Word where
  /-- two dashes: no options after this -/
  | dashes
  | long (name : String) (value : Option String)
  | shorts (letters : List Char)
  | plain (text : String)
  deriving DecidableEq, Repr

/-- The text before the first equals sign, and the text after it if there is one. -/
def splitEquals : List Char → List Char × Option (List Char)
  | [] => ([], none)
  | c :: cs =>
    if c = '=' then ([], some cs)
    else ((c :: (splitEquals cs).1), (splitEquals cs).2)

/-- A word is an option only by its dashes; a single dash is plain. -/
def Word.ofString (s : String) : Word :=
  match s.toList with
  | ['-', '-'] => dashes
  | '-' :: '-' :: cs =>
    long (String.ofList (splitEquals cs).1) ((splitEquals cs).2.map String.ofList)
  | '-' :: c :: cs => shorts (c :: cs)
  | _ => plain s

/-! ## Values -/

/-- What one level has been given so far. -/
structure Given where
  verbose : Bool := false
  lines : Bool := false
  config : Option String := none
  format : Option DumpFormat := none
  indent : Option UInt64 := none
  file : Option String := none
  deriving DecidableEq, Repr

namespace Given

def empty : Given := ⟨false, false, none, none, none, none⟩

/-- A number of at most 64 bits, in decimal digits behind a plus sign at most. -/
def indentOfString? (s : String) : Option UInt64 :=
  let digits := match s.toList with
    | '+' :: cs => cs
    | cs => cs
  if digits.isEmpty || !digits.all Char.isDigit then none
  else
    let n := digits.foldl (fun n c => 10 * n + (c.toNat - '0'.toNat)) 0
    if n < UInt64.size then some (UInt64.ofNat n) else none

/-- Fill a slot with a value. An option is repeated before its value is bad. -/
def fill (g : Given) (slot : Slot) (value : String) : Except Stop Given :=
  match slot with
  | .config =>
    if g.config.isSome then .error (.repeated .config)
    else if value.isEmpty then .error (.emptyPath .config)
    else .ok { g with config := some value }
  | .format =>
    if g.format.isSome then .error (.repeated .format)
    else match DumpFormat.ofName? value with
      | some f => .ok { g with format := some f }
      | none => .error (.unknownFormat value)
  | .indent =>
    if g.indent.isSome then .error (.repeated .indent)
    else match indentOfString? value with
      | some n => .ok { g with indent := some n }
      | none => .error (.badIndent value)
  | .file =>
    if value.isEmpty then .error (.emptyPath .file) else .ok { g with file := some value }

/-- Raise an option that takes no value. -/
def raise (g : Given) (o : OptionName) : Except Stop Given :=
  match o with
  | .help => .error .help
  | .version => .error .version
  | .verbose => if g.verbose then .error (.repeated o) else .ok { g with verbose := true }
  | .lines => if g.lines then .error (.repeated o) else .ok { g with lines := true }
  | _ => .ok g

end Given

/-! ## One level -/

/-- A level under way: what has been given, and the slot that was named last with its value if that
has come, not yet filled. -/
structure Progress where
  given : Given
  pending : Option (Slot × Option String)
  deriving DecidableEq, Repr

namespace Progress

def start : Progress := ⟨.empty, none⟩

/-- Fill the slot that is pending. -/
def settle (p : Progress) : Except Stop Given :=
  match p.pending with
  | none => .ok p.given
  | some (slot, some value) => p.given.fill slot value
  | some (slot, none) => .error (.missingValue slot)

/-- The place of the source file is taken. -/
def hasFile (p : Progress) : Bool :=
  p.given.file.isSome || p.pending.any (·.1 == .file)

/-- A long option, with a value attached or not. -/
def long (p : Progress) (level : Level) (name : String) (value : Option String) :
    Except Stop Progress :=
  match level.long? name with
  | none => .error (.unknownArgument ("--" ++ name))
  | some o =>
    match o.slot?, value with
    | some slot, some v => do return ⟨← (← p.settle).fill slot v, none⟩
    | some slot, none => do return ⟨← p.settle, some (slot, none)⟩
    | none, some _ => .error (.unneededValue o)
    | none, none => do return ⟨← (← p.settle).raise o, none⟩

/-- Options by their letters, from the left. -/
def shorts (level : Level) : Progress → List Char → Except Stop Progress
  | p, [] => .ok p
  | p, c :: cs =>
    match level.short? c with
    | none => .error (.unknownArgument (String.ofList ['-', c]))
    | some o => do shorts level ⟨← (← p.settle).raise o, none⟩ cs

/-- A source file. -/
def file (p : Progress) (word : String) : Except Stop Progress :=
  if p.hasFile then .error (.unknownArgument word)
  else do return ⟨← p.settle, some (.file, some word)⟩

end Progress

/-- The words after the name of a command. After two dashes every word is a source file. -/
def readCommandWords (level : Level) : Bool → Progress → List String → Except Stop Given
  | _, p, [] => p.settle
  | true, p, w :: ws => do readCommandWords level true (← p.file w) ws
  | false, p, w :: ws =>
    match Word.ofString w with
    | .dashes => readCommandWords level true p ws
    | .long name value => do readCommandWords level false (← p.long level name value) ws
    | .shorts cs => do readCommandWords level false (← Progress.shorts level p cs) ws
    | .plain w =>
      match p.pending with
      | some (slot, none) => readCommandWords level false ⟨p.given, some (slot, some w)⟩ ws
      | _ => do readCommandWords level false (← p.file w) ws

/-! ## The whole line -/

/-- The words after the name of a command: the source file, and what else was given. -/
def readCommand (level : Level) (words : List String) : Except Stop (String × Given) := do
  let g ← readCommandWords level false .start words
  match g.file with
  | none => .error .missingFile
  | some file => .ok (file, g)

/-- The command line with what was given before and after the name of the command; after it wins. -/
def assemble (level : Level) (file : String) (before after : Given) : CommandLine where
  verbose := before.verbose || after.verbose
  config := after.config <|> before.config
  command :=
    match level with
    | .tokens => .tokens file
    | _ => .parse file ⟨after.format, after.indent, after.lines⟩

/-- The names of the commands. -/
def commandNames : List String := ["parse", "tokens", "help"]

/-- The words after `help` may name one command. -/
def readHelpWords : List String → Stop
  | [] => .help
  | w :: ws =>
    if w ∈ commandNames then
      match ws with
      | [] => .help
      | w :: _ => .unknownCommand w
    else .unknownCommand w

/-- The words from the start. After two dashes no command can be named any more. -/
def readWords : Bool → Progress → List String → Except Stop CommandLine
  | _, p, [] => do
    let g ← p.settle
    .error (if g = .empty then .noArguments else .missingCommand)
  | true, _, w :: _ =>
    .error (if w ∈ commandNames then .unknownArgument w else .unknownCommand w)
  | false, p, w :: ws =>
    match Word.ofString w with
    | .dashes => readWords true p ws
    | .long name value => do readWords false (← p.long .top name value) ws
    | .shorts cs => do readWords false (← Progress.shorts .top p cs) ws
    | .plain w =>
      match p.pending with
      | some (slot, none) => readWords false ⟨p.given, some (slot, some w)⟩ ws
      | _ =>
        match w with
        | "parse" => do
          let (file, after) ← readCommand .parse ws
          return assemble .parse file (← p.settle) after
        | "tokens" => do
          let (file, after) ← readCommand .tokens ws
          return assemble .tokens file (← p.settle) after
        | "help" => .error (readHelpWords ws)
        | _ => .error (.unknownCommand w)

/-- What a command line means; `words` leaves out the name of the program. -/
def read (words : List String) : Except Stop CommandLine := readWords false .start words

end CommandLine
end StatementLang
