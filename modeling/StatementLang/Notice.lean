import StatementLang.Event
import StatementLang.SyntaxError
/-!
# Notices

What a parser tells a listener: an event, or the report that a token does not fit.
A report is answered with the syntax error it amounts to.

A notice is a call of an `EventSink`, with the three calls `commence`, `accept_terminal` and
`finish` as one, and `report_error` as the other. The answer never steers the parser, so a parse is
told to its listener as a whole.
-/
namespace StatementLang

inductive Notice where
  | event (e : Event)
  | report (token : Token) (expected : String)
  deriving DecidableEq, Repr

namespace Notice

/-- The error with which a notice is answered, unless a listener says otherwise (`report_error`). -/
def error? : Notice → Option SyntaxError
  | event _ => none
  | report t expected => some (.ofToken t expected)

end Notice

/-- A listener to a parse (`EventSink`). An event may be one that it has no result for. It answers
the report of a token with an error, which is that of the token unless it says otherwise. -/
class Listener (κ : Type) where
  hear? : κ → Event → Option κ
  answer : κ → Token → String → SyntaxError × κ := fun k t expected => (.ofToken t expected, k)

end StatementLang
