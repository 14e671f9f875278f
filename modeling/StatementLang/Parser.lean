import StatementLang.Notice
import StatementLang.TokenFeed
import StatementLang.Parser.Plan
/-!
# The parser

A predictive parser: it holds one token of lookahead and a stack with a frame for every open rule,
and each step looks at the top frame only. Rules that commence, tokens that are taken and rules that
finish are told as events; the first token that fits nothing ends the parse, with the innermost open
rule to say what was expected. A limit on the number of open rules ends a parse that nests deeper.

The program parses by calls: every open rule is a call of `rule` under way. Here these calls are the
stack of frames, and their depth is its length. The lines that the program writes to its log about
terminals and syntax errors are left out, and so is its check that no rule is dropped unfinished,
for which the frames leave no room.
-/
namespace StatementLang

/-- Why a parse failed: the next token does not fit the innermost open rule (`Mismatch`), or one
more rule would nest deeper than the limit. -/
inductive ParseFault where
  | mismatch (rule : Rule)
  | tooDeep (limit : Nat)
  deriving DecidableEq, Repr

/-- What the message of a fault says was expected. -/
def ParseFault.expected : ParseFault → String
  | mismatch r => r.expected
  | tooDeep n => "at most " ++ toString n ++ " nested rules"

inductive Verdict where
  | accepted
  | rejected (fault : ParseFault)
  deriving DecidableEq, Repr

/-- How deep rules may nest (`MAX_DEPTH`). -/
def maxDepth : Nat := 1024

namespace Parser

/-- An open rule and what is left of its plan. -/
structure Frame where
  rule : Rule
  todo : List Item
  deriving DecidableEq, Repr

/-- A parse under way: the token looked at and the feed of the tokens after it (`Lookahead`), the
open rules from the innermost outwards, and the events so far, the latest first. -/
structure State (σ : Type) where
  lookahead : Token
  feed : σ
  frames : List Frame
  past : List Event

variable {σ : Type}

/-- The rules that are open, innermost first. -/
def State.openRules (s : State σ) : List Rule := s.frames.map (·.rule)

/-- The events so far, in the order in which they happened. -/
def State.events (s : State σ) : List Event := s.past.reverse

/-- Open `r` on top of the open rules (`commence`). -/
def State.commence (r : Rule) (s : State σ) : State σ :=
  { s with frames := ⟨r, plan r⟩ :: s.frames, past := .commence r :: s.past }

/-- Open `r` unless the limit is reached (`rule`, up to its production). Without a limit any number
of rules may be open. -/
def enter (limit : Option Nat) (r : Rule) (s : State σ) : Verdict ⊕ State σ :=
  match limit with
  | none => .inr (s.commence r)
  | some n =>
    if s.frames.length < n then .inr (s.commence r) else .inl (.rejected (.tooDeep n))

theorem eq_commence_of_enter {limit : Option Nat} {r : Rule} {s s' : State σ}
    (h : enter limit r s = .inr s') : s' = s.commence r := by
  unfold enter at h
  split at h
  · cases h; rfl
  · split at h <;> cases h; rfl

variable [TokenFeed σ]

/-- Accept the lookahead and pull the next token (`accept`, for a token that fits). -/
def State.shift (s : State σ) : State σ :=
  { s with
    lookahead := (TokenFeed.pull s.feed).1
    feed := (TokenFeed.pull s.feed).2
    past := .terminal s.lookahead :: s.past }

/-- One step: the verdict, or the state after it. A plan that is done finishes its rule
(`complete`). A token that does not fit is reported by the innermost rule, and all rules around it
pass the report on, so it is the verdict at once. -/
def step (limit : Option Nat) (s : State σ) : Verdict ⊕ State σ :=
  match s.frames with
  | [] => .inl .accepted
  | ⟨r, []⟩ :: outer => .inr { s with frames := outer, past := .finish r :: s.past }
  | ⟨r, .take ts :: is⟩ :: outer =>
    if s.lookahead.kind ∈ ts.kinds then .inr { s.shift with frames := ⟨r, is⟩ :: outer }
    else .inl (.rejected (.mismatch r))
  | ⟨r, .call r' :: is⟩ :: outer => enter limit r' { s with frames := ⟨r, is⟩ :: outer }
  | ⟨r, .choose c :: is⟩ :: outer =>
    match c.pick s.lookahead.kind with
    | some js => .inr { s with frames := ⟨r, js ++ is⟩ :: outer }
    | none => .inl (.rejected (.mismatch r))

/-! ## Every parse ends -/

/-- The tokens that are still to come, the lookahead among them. -/
def State.ahead (s : State σ) : Nat :=
  TokenFeed.left s.feed + if s.lookahead.kind = .eof then 0 else 1

/-- A bound on the steps until a token is taken. -/
def framesLead : List Frame → Nat
  | [] => 0
  | f :: outer => lead f.todo (framesLead outer)

theorem ahead_shift_lt (s : State σ) (h : s.lookahead.kind ≠ .eof) : s.shift.ahead < s.ahead := by
  have hle := TokenFeed.left_pull_le s.feed
  have hlt := TokenFeed.left_pull_lt s.feed
  simp only [State.ahead, State.shift, h, if_false]
  by_cases he : (TokenFeed.pull s.feed).1.kind = .eof
  · simp only [he, if_true]; omega
  · have := hlt he
    simp only [he, if_false]; omega

/-- A step takes a token, or comes nearer to taking one. -/
theorem step_decreases {limit : Option Nat} {s s' : State σ} (h : step limit s = .inr s') :
    s'.ahead < s.ahead ∨ s'.ahead = s.ahead ∧ framesLead s'.frames < framesLead s.frames := by
  unfold step at h
  split at h
  · cases h
  · rename_i r outer hs
    cases h
    exact .inr ⟨rfl, by simp [hs, framesLead, lead]⟩
  · rename_i r ts is outer hs
    split at h
    · rename_i hk
      cases h
      exact .inl (ahead_shift_lt s fun he => ts.eof_not_mem (he ▸ hk))
    · cases h
  · rename_i r r' is outer hs
    rw [eq_commence_of_enter h]
    exact .inr ⟨rfl, by simpa [State.commence, hs, framesLead, lead] using lead_plan_lt r' _⟩
  · rename_i r c is outer hs
    split at h
    · rename_i js hj
      cases h
      exact .inr ⟨rfl, by simpa [hs, framesLead] using lead_pick_lt hj is _⟩
    · cases h

/-- The verdict on `s`, and the state in which it was reached. -/
def run (limit : Option Nat) (s : State σ) : Verdict × State σ :=
  match h : step limit s with
  | .inl v => (v, s)
  | .inr s' =>
    have := step_decreases h
    run limit s'
termination_by (s.ahead, framesLead s.frames)
decreasing_by
  rcases this with hlt | ⟨heq, hlt⟩
  · exact .left _ _ hlt
  · rw [heq]; exact .right _ hlt

theorem run_of_verdict {limit : Option Nat} {s : State σ} {v : Verdict}
    (h : step limit s = .inl v) : run limit s = (v, s) := by
  rw [run]; split <;> simp_all

theorem run_of_step {limit : Option Nat} {s s' : State σ}
    (h : step limit s = .inr s') : run limit s = run limit s' := by
  rw [run]; split <;> simp_all

/-- Before the first rule: the first token has been pulled (`new`). -/
def start (feed : σ) : State σ :=
  ⟨(TokenFeed.pull feed).1, (TokenFeed.pull feed).2, [], []⟩

end Parser

/-- What a parse leaves behind: its events, the verdict, the token looked at last, which has been
pulled whether it was accepted or not, and the feed after all pulls. -/
structure Parse (σ : Type) where
  events : List Event
  verdict : Verdict
  lookahead : Token
  feed : σ

namespace Parse

variable {σ κ : Type}

/-- The error of a parse that failed; it is about the token looked at last. -/
def error (p : Parse σ) : Option SyntaxError :=
  match p.verdict with
  | .accepted => none
  | .rejected f => some (.ofToken p.lookahead f.expected)

/-- All that a parse tells, in order: its events, then the report of its error. -/
def notices (p : Parse σ) : List Notice :=
  p.events.map .event ++
    match p.verdict with
    | .accepted => []
    | .rejected f => [.report p.lookahead f.expected]

/-- Tell a listener all of a parse (`parse_tokens`): the error with which it answers the report, if
there is one, and the listener after that. -/
def tell? [Listener κ] (p : Parse σ) (k : κ) : Option (Option SyntaxError × κ) :=
  (p.events.foldlM Listener.hear? k).map fun k =>
    match p.verdict with
    | .accepted => (none, k)
    | .rejected f =>
      let reply := Listener.answer k p.lookahead f.expected
      (some reply.1, reply.2)

/-- Listeners that answer with the error of the token all give the same error, that of the parse. -/
theorem error_of_tell? [Listener κ]
    (h : ∀ (k : κ) (t : Token) (expected : String),
      (Listener.answer k t expected).1 = .ofToken t expected)
    {p : Parse σ} {k k' : κ} {e : Option SyntaxError} (htell : p.tell? k = some (e, k')) :
    e = p.error := by
  obtain ⟨j, -, hreply⟩ := Option.map_eq_some_iff.1 htell
  unfold error
  cases hv : p.verdict with
  | accepted =>
    rw [hv] at hreply
    exact (congrArg Prod.fst hreply).symm
  | rejected f =>
    rw [hv] at hreply
    exact (congrArg Prod.fst hreply).symm.trans (congrArg some (h j p.lookahead f.expected))

end Parse

namespace Parser

variable {σ : Type} [TokenFeed σ]

/-- The parse that ended in a state with a verdict. -/
def conclude : Verdict × State σ → Parse σ
  | (v, s) => ⟨s.events, v, s.lookahead, s.feed⟩

/-- Parse a statement part, with any limit on the nesting of rules (`run`, whose limit is
`maxDepth`). -/
def parseWithin (limit : Option Nat) (feed : σ) : Parse σ :=
  match enter limit .statementPart (start feed) with
  | .inl v => conclude (v, start feed)
  | .inr s => conclude (run limit s)

end Parser

/-- Parse a statement part. Nothing after its final `end` is examined. -/
def parse {σ : Type} [TokenFeed σ] (feed : σ) : Parse σ :=
  Parser.parseWithin (some maxDepth) feed

end StatementLang
