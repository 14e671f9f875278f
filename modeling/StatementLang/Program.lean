import StatementLang.CommandLine
import StatementLang.Config
import StatementLang.Listing
import StatementLang.Report
/-!
# The program

One run of the command: the words of the command line are read, the configuration is loaded, the
source file is read, and its dump or its listing is printed. The configuration comes first, so its
failure hides that of the source file.

The log of the program, which the option `verbose` makes longer, is left out: the option is read and
has no other effect here. What is written to the streams of output and errors apart from that log is
the outcome.
-/
namespace StatementLang

/-- How a run ends. -/
inductive ExitStatus where
  | success
  /-- a file cannot be used, or the source has a syntax error -/
  | failure
  /-- the command line names nothing to run -/
  | usage
  /-- the dump cannot be laid out -/
  | overflow
  deriving DecidableEq, Repr

/-- The number that a status has for the system. -/
def ExitStatus.code : ExitStatus → UInt32
  | success => 0
  | failure => 1
  | usage => 2
  | overflow => 101

/-- What a run prints and how it ends. -/
structure Outcome where
  status : ExitStatus
  output : String
  errors : String
  deriving DecidableEq, Repr

namespace Program

/-- The line printed when asked for the version. -/
def versionLine : String := "descent 0.3.1\n"

/-- A stand-in for the help text, which the library that reads the command line composes. It stands
for the message of a usage error as well. Only the status of such a run says something about the
program: no result is about the wording. -/
def helpText : String :=
  "Predictive parser for the descent statement language\n\n" ++
  "Usage: descent [OPTIONS] <COMMAND>\n\n" ++
  "Commands:\n" ++
  "  parse   Parse a source file and print its parse events\n" ++
  "  tokens  Print the tokens of a source file, one per line\n" ++
  "  help    Print this message\n\n" ++
  "Options:\n" ++
  "  -v, --verbose          Log parser decisions to stderr\n" ++
  "      --config <CONFIG>  Configuration file (defaults to ./descent.toml when present)\n" ++
  "  -h, --help             Print help\n" ++
  "  -V, --version          Print version\n\n" ++
  "Options of parse:\n" ++
  "      --format <FORMAT>  Output format (overrides the config file): events, tree\n" ++
  "      --indent <INDENT>  Spaces per nesting level in the event dump\n" ++
  "      --lines            Append the source line to every accepted terminal\n\n" ++
  "Examples:\n" ++
  "  descent parse program.txt              # event dump\n" ++
  "  descent parse program.txt --format tree\n" ++
  "  descent tokens program.txt\n"

/-- A run that failed with a message (`main`). -/
def failed (message : String) : Outcome := ⟨.failure, "", "descent error: " ++ message ++ "\n"⟩

/-- A run of the command line's reader that stopped. -/
def stopped : CommandLine.Stop → Outcome
  | .help => ⟨.success, helpText, ""⟩
  | .version => ⟨.success, versionLine, ""⟩
  | _ => ⟨.usage, "", helpText⟩

/-- The outcome of parsing a source text (`run_parse`, once the file is read). -/
def parsed (settings : OutputSettings) (source : String) : Outcome :=
  match report? settings source with
  | none => ⟨.overflow, "", ""⟩
  | some ⟨dump, none⟩ => ⟨.success, dump, ""⟩
  | some ⟨dump, some e⟩ => ⟨.failure, dump, e.message ++ "\n"⟩

variable {m : Type → Type} [Monad m]

/-- The configuration that a command line asks for. -/
def configure (fs : FileSystem m) : Option String → m (Except Config.Fault Config)
  | some path => Config.ofFile fs path
  | none => do return .ok (← Config.discover fs)

/-- Go on with the text of the source file (`read_source`). -/
def withSource (fs : FileSystem m) (file : String) (next : String → Outcome) : m Outcome := do
  match ← fs.readText file with
  | .ok source => pure (next source)
  | .error cause => pure (failed ("failed to read " ++ file ++ ": " ++ cause.message))

/-- Run a command with a configuration (`run_parse`, `run_tokens`). -/
def perform (fs : FileSystem m) (config : Config) : Command → m Outcome
  | .parse file overrides => withSource fs file (parsed (config.output.override overrides))
  | .tokens file => withSource fs file fun source => ⟨.success, listing source, ""⟩

/-- One run; `words` leaves out the name of the program (`main`, `run`). -/
def run (fs : FileSystem m) (words : List String) : m Outcome := do
  match CommandLine.read words with
  | .error stop => pure (stopped stop)
  | .ok line =>
    match ← configure fs line.config with
    | .error fault => pure (failed fault.message)
    | .ok config => perform fs config line.command

end Program
end StatementLang
