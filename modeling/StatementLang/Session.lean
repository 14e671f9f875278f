import StatementLang.Transcript
/-!
# Sessions

A session has one token feed and one transcript that all its steps share. A step pulls one token or
parses from where the feed stands; each parse pulls a first token of its own, so the token that
the parse before it looked at last is gone.

The program lets a parse borrow its token source and its listener, so that both can be used again
after it; a session is one way to use them again.
-/
namespace StatementLang

structure Session (σ : Type) where
  feed : σ
  transcript : Transcript

namespace Session

inductive Step where
  | pull
  | parse
  deriving DecidableEq, Repr

/-- What a step answers. -/
inductive Answer (σ : Type) where
  | token (t : Token)
  | parse (p : Parse σ)

variable {σ : Type} [TokenFeed σ]

/-- Before the first step. -/
def start (feed : σ) : Session σ := ⟨feed, .empty⟩

/-- Pull one token; the transcript hears nothing of it. -/
def pull (s : Session σ) : Token × Session σ :=
  ((TokenFeed.pull s.feed).1, { s with feed := (TokenFeed.pull s.feed).2 })

/-- Parse, and let the transcript hear it. -/
def parse (s : Session σ) : Parse σ × Session σ :=
  let p := StatementLang.parse s.feed
  (p, ⟨p.feed, s.transcript.append p⟩)

def step (s : Session σ) : Step → Answer σ × Session σ
  | .pull => (.token s.pull.1, s.pull.2)
  | .parse => (.parse s.parse.1, s.parse.2)

/-- The answers of some steps, and the session after them. -/
def run (s : Session σ) : List Step → List (Answer σ) × Session σ
  | [] => ([], s)
  | x :: xs =>
    let (a, s) := s.step x
    let (more, s) := s.run xs
    (a :: more, s)

/-- The tokens that a step pulled: for a parse the terminals it accepted and the token it looked at
last. -/
def Answer.pulled : Answer σ → List Token
  | .token t => [t]
  | .parse p => Event.terminals p.events ++ [p.lookahead]

end Session
end StatementLang
