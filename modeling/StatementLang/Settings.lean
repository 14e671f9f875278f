import StatementLang.Transcript
/-!
# Output settings

How the result of a parse is printed, and how settings from different places are merged.
-/
namespace StatementLang

/-- What is printed: the events or the tree (`OutputFormat`). -/
inductive DumpFormat where
  | events | tree
  deriving DecidableEq, Repr, Inhabited

namespace DumpFormat

def name : DumpFormat → String
  | events => "events"
  | tree => "tree"

/-- The format with a name, spelled exactly. -/
def ofName? (s : String) : Option DumpFormat :=
  if s = "events" then some events else if s = "tree" then some tree else none

theorem ofName?_name (f : DumpFormat) : ofName? f.name = some f := by cases f <;> rfl

end DumpFormat

/-- The settings once those of the file and of the command line are merged (`OutputConfig`). -/
structure OutputSettings where
  format : DumpFormat := .events
  indent : UInt64 := 2
  showLines : Bool := false
  deriving DecidableEq, Repr, Inhabited

/-- Settings that may be left open. Lines can only be asked for, not forbidden. -/
structure Overrides where
  format : Option DumpFormat := none
  indent : Option UInt64 := none
  lines : Bool := false
  deriving DecidableEq, Repr, Inhabited

namespace OutputSettings

/-- What is used where nothing is set (`default`). -/
def standard : OutputSettings := ⟨.events, 2, false⟩

/-- The settings after overrides: what they set wins, and lines show if either side asks
(`with_overrides`). -/
def override (s : OutputSettings) (o : Overrides) : OutputSettings where
  format := o.format.getD s.format
  indent := o.indent.getD s.indent
  showLines := s.showLines || o.lines

/-- How these settings print a transcript (`render_options`). -/
def layout (s : OutputSettings) : Layout := ⟨s.indent, s.showLines⟩

end OutputSettings
end StatementLang
