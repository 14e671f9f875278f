import StatementLang.Parser
/-!
# Transcripts

A transcript keeps the events it was told, in order, and counts the errors reported to it. It is
printed with one line per event, indented by the rules that are open around it (`EventLog`).
-/
namespace StatementLang

/-- How a transcript is printed: the spaces per level, and whether terminals show their line
(`RenderOptions`). -/
structure Layout where
  indent : UInt64 := 2
  showLines : Bool := false
  deriving DecidableEq, Repr, Inhabited

structure Transcript where
  events : List Event := []
  reported : Nat := 0
  deriving DecidableEq, Repr, Inhabited

namespace Transcript

def empty : Transcript := ⟨[], 0⟩

/-- Keep an event (`commence`, `accept_terminal` and `finish`). -/
def record (s : Transcript) (e : Event) : Transcript := { s with events := s.events ++ [e] }

/-- Report that `expected` was expected where `t` stands. Only the count of reports changes
(`report_error`). -/
def report (s : Transcript) (t : Token) (expected : String) : SyntaxError × Transcript :=
  (.ofToken t expected, { s with reported := s.reported + 1 })

/-- The transcript after a notice. -/
def hear (s : Transcript) : Notice → Transcript
  | .event e => s.record e
  | .report t expected => (s.report t expected).2

/-- The transcript after a parse has told it everything. -/
def append {σ : Type} (s : Transcript) (p : Parse σ) : Transcript where
  events := s.events ++ p.events
  reported := s.reported + if p.error.isSome then 1 else 0

instance : Listener Transcript where
  hear? s e := some (s.record e)
  answer := report

theorem foldl_record (s : Transcript) (es : List Event) :
    es.foldl record s = ⟨s.events ++ es, s.reported⟩ := by
  induction es generalizing s with
  | nil => simp
  | cons e es ih => simp [record, ih]

/-- Appending a parse is hearing its notices one by one. -/
theorem append_eq_foldl_hear {σ : Type} (s : Transcript) (p : Parse σ) :
    s.append p = p.notices.foldl hear s := by
  have hevents : (p.events.map .event).foldl hear s = ⟨s.events ++ p.events, s.reported⟩ := by
    rw [List.foldl_map]
    exact foldl_record s p.events
  obtain ⟨es, v, t, src⟩ := p
  cases v <;> simp [append, Parse.notices, Parse.error, hevents, hear, report]

/-- A transcript hears a parse out and answers with its error. -/
theorem tell?_eq {σ : Type} (s : Transcript) (p : Parse σ) :
    p.tell? s = some (p.error, s.append p) := by
  have hevents : p.events.foldlM Listener.hear? s =
      some (⟨s.events ++ p.events, s.reported⟩ : Transcript) :=
    List.foldlM_pure.trans (congrArg some (foldl_record s p.events))
  rw [Parse.tell?, hevents]
  obtain ⟨es, v, t, src⟩ := p
  cases v <;> simp [append, Parse.error, Listener.answer, report]

/-! ## Printing -/

/-- Each event with its level, when `depth` rules are open before the first. A rule finishes on the
level on which it commenced; without an open rule the level stays 0. -/
def levels : Nat → List Event → List (Nat × Event)
  | _, [] => []
  | depth, .commence r :: es => (depth, .commence r) :: levels (depth + 1) es
  | depth, .terminal t :: es => (depth, .terminal t) :: levels depth es
  | depth, .finish r :: es => (depth - 1, .finish r) :: levels (depth - 1) es

/-- What a line says about an event. -/
def eventText (showLines : Bool) : Event → String
  | .commence r => "> " ++ r.name
  | .finish r => "< " ++ r.name
  | .terminal t =>
    if showLines then t.display ++ " (line " ++ toString t.line.toNat ++ ")" else t.display

/-- A line of `text` behind `width` spaces. -/
def indented (width : Nat) (text : String) : String :=
  String.ofList (List.replicate width ' ') ++ text ++ "\n"

/-- The bytes of the lines before the first indented one: what the text holds when it is asked for
room for an indentation for the first time. -/
def flushSize (showLines : Bool) : List (Nat × Event) → Nat
  | (0, e) :: lines => (eventText showLines e).utf8ByteSize + 1 + flushSize showLines lines
  | _ => 0

/-- The first indented line, which is one level in, has room behind the lines before it: room for
all its spaces is asked for at once (`push_line`), and no text may have 2 ^ 63 bytes or more. The
lines after it are not asked about here. `line?` checks that their widths fit 64 bits; one of them
can fit and find no room only when about 2 ^ 61 bytes are already written, and running out of memory
before that is left out. -/
def fits (layout : Layout) (lines : List (Nat × Event)) : Bool :=
  lines.all (·.1 = 0) || flushSize layout.showLines lines + layout.indent.toNat < UInt64.size / 2

/-- The line of an event on a level (`push_line`). The width of the indentation has to fit 64
bits. -/
def line? (layout : Layout) : Nat × Event → Option String
  | (depth, e) =>
    let width := depth * layout.indent.toNat
    if width < UInt64.size then some (indented width (eventText layout.showLines e)) else none

/-- The printed form of some events, unless an indentation overflows. -/
def renderEvents? (layout : Layout) (es : List Event) : Option String :=
  let lines := levels 0 es
  if fits layout lines then (lines.mapM (line? layout)).map String.join else none

/-- The printed form of a transcript, unless an indentation overflows (`render`). -/
def render? (s : Transcript) (layout : Layout) : Option String :=
  renderEvents? layout s.events

theorem length_levels (depth : Nat) (es : List Event) : (levels depth es).length = es.length := by
  fun_induction levels depth es <;> simp_all

end Transcript
end StatementLang
