import StatementLang.Session
import StatementLang.Proofs.Feed.Streams
import StatementLang.Proofs.Parser.Reading
/-!
# Every token of a session is accounted for

The steps of a session share one feed. A parse keeps one token of lookahead, and that token is gone
with it; so what a step pulled is the token it answered with, or the terminals it accepted and its
last lookahead. Put together, that is what the feed hands out from its first token on, each token
once (`every_token_accounted_for`). One step pulls what comes next (`pulled_step`), a run does so by
induction (`pulled_run`).
-/
namespace StatementLang

open TokenFeed

variable {σ : Type}

/-- The error of a parse is about the token that it looked at last. -/
theorem Parse.error_about_lookahead {p : Parse σ} {e : SyntaxError} (h : p.error = some e) :
    e.line = p.lookahead.line ∧ e.found = p.lookahead.kind := by
  obtain ⟨fault, -, rfl⟩ := Parser.exists_fault_of_error h
  exact ⟨rfl, rfl⟩

variable [TokenFeed σ]

/-! ## Feeds with a meter -/

/-- A feed that counts its pulls. -/
structure Metered (σ : Type) where
  feed : σ
  pulls : Nat

namespace Metered

instance : TokenFeed (Metered σ) where
  pull m := ((TokenFeed.pull m.feed).1, ⟨(TokenFeed.pull m.feed).2, m.pulls + 1⟩)
  left m := left m.feed
  left_pull_le m := left_pull_le m.feed
  left_pull_lt m := left_pull_lt m.feed

theorem pulls_advance (m : Metered σ) (n : Nat) : (advance m n).pulls = m.pulls + n := by
  induction n generalizing m with
  | zero => rfl
  | succ n ih =>
    rw [advance, ih]
    exact Nat.add_right_comm m.pulls 1 n

end Metered

/-! ## What steps pull -/

namespace Session

/-- A parse pulls the tokens of its feed in order and leaves the feed behind the last of them. -/
theorem pulled_parse (f : σ) :
    let read := (Answer.parse (StatementLang.parse f)).pulled
    read = take f read.length ∧ (StatementLang.parse f).feed = advance f read.length := by
  intro read
  obtain ⟨v, s, hsteps, -, hp⟩ := Parser.exists_steps_halt f
  obtain ⟨haccepted, hlookahead, hfeed⟩ := Parser.on_of_steps hsteps (Parser.on_opened f)
  have hread : read = s.accepted ++ [s.lookahead] := by
    simp only [read, hp]
    rfl
  have hlength : read.length = s.pos + 1 := by
    rw [hread, List.length_append]
    rfl
  rw [hlength]
  constructor
  · have htake : take f s.pos = s.accepted := haccepted
    rw [hread, take_add, htake, hlookahead]
    rfl
  · rw [hp, ← hfeed]
    rfl

variable (s : Session σ)

/-- The tokens that some steps pull, in order. -/
def pulled (xs : List Step) : List Token := (s.run xs).1.flatMap Answer.pulled

theorem run_append (xs ys : List Step) :
    s.run (xs ++ ys) = ((s.run xs).1 ++ ((s.run xs).2.run ys).1, ((s.run xs).2.run ys).2) := by
  induction xs generalizing s with
  | nil => rfl
  | cons x xs ih => simp only [List.cons_append, run, ih]

theorem pulled_step (x : Step) :
    (s.step x).1.pulled = take s.feed (s.step x).1.pulled.length ∧
      (s.step x).2.feed = advance s.feed (s.step x).1.pulled.length := by
  cases x with
  | pull => exact ⟨rfl, rfl⟩
  | parse => exact pulled_parse s.feed

theorem pulled_run (xs : List Step) :
    s.pulled xs = take s.feed (s.pulled xs).length ∧
      (s.run xs).2.feed = advance s.feed (s.pulled xs).length := by
  induction xs generalizing s with
  | nil => exact ⟨rfl, rfl⟩
  | cons x xs ih =>
    obtain ⟨htake, hfeed⟩ := s.pulled_step x
    obtain ⟨htakes, hfeeds⟩ := ih (s.step x).2
    have hpulled : s.pulled (x :: xs) = (s.step x).1.pulled ++ (s.step x).2.pulled xs := rfl
    rw [hpulled, List.length_append]
    constructor
    · rw [take_add, ← htake, ← hfeed, ← htakes]
    · rw [advance_add, ← hfeed, ← hfeeds]
      rfl

/-! ## Accounts -/

/-- What is true of a parse that comes behind the steps `xs` and before the steps `ys`. -/
structure ParseAccounted (xs ys : List Step) (p : Parse σ) : Prop where
  /-- It is what the session answers there. -/
  answer : (s.run (xs ++ .parse :: ys)).1 =
    (s.run xs).1 ++ .parse p :: ((s.run (xs ++ [.parse])).2.run ys).1
  /-- Its error is about the token that was pulled last. -/
  error : ∀ e, p.error = some e → ∃ t, (s.pulled (xs ++ [.parse])).getLast? = some t ∧
    e.line = t.line ∧ e.found = t.kind
  /-- It adds to the transcript what a new transcript hears from the rest of the feed. -/
  transcript : (s.run (xs ++ [.parse])).2.transcript.events = (s.run xs).2.transcript.events ++
    ((start (advance s.feed (s.pulled xs).length)).run [.parse]).2.transcript.events

/-- The account of some steps. -/
structure Accounted (xs : List Step) : Prop where
  /-- What they pull is what the feed hands out from its first token on. -/
  tokens : s.pulled xs = (List.range (s.pulled xs).length).map (get s.feed)
  /-- The feed has been pulled once for each of these tokens. -/
  feed : (s.run xs).2.feed = advance s.feed (s.pulled xs).length
  /-- And so it goes with each parse among them. -/
  parses : ∀ before rest, xs = before ++ .parse :: rest → ∃ p, s.ParseAccounted before rest p

theorem parseAccounted (xs ys : List Step) :
    s.ParseAccounted xs ys (s.run xs).2.parse.1 := by
  have hrun : s.run (xs ++ [.parse]) =
      ((s.run xs).1 ++ [.parse (s.run xs).2.parse.1], (s.run xs).2.parse.2) := by
    rw [run_append]
    rfl
  refine ⟨?_, fun e he => ⟨(s.run xs).2.parse.1.lookahead, ?_, Parse.error_about_lookahead he⟩, ?_⟩
  · rw [run_append, hrun]
    rfl
  · rw [pulled, hrun, List.flatMap_append, List.flatMap_singleton, Answer.pulled,
      ← List.append_assoc]
    exact List.getLast?_concat
  · rw [hrun, ← (s.pulled_run xs).2]
    exact congrArg _ (List.nil_append _).symm

theorem accounted (xs : List Step) : s.Accounted xs where
  tokens := (s.pulled_run xs).1.trans (take_eq_map_get s.feed _)
  feed := (s.pulled_run xs).2
  parses before rest _ := ⟨_, s.parseAccounted before rest⟩

/-- **No token is lost or pulled twice.** Whatever the feed and the steps of a session, the steps
pull the first tokens of the feed in order, each parse fails at the token it pulled last and tells
the transcript what it would tell a new one; a feed with a meter shows that there were no other
pulls. What a lexer and a queue hand out are their tokens, and ends of file behind them. -/
theorem every_token_accounted_for :
    (∀ {σ : Type} [TokenFeed σ] (s : Session σ) (xs : List Step), s.Accounted xs) ∧
      (∀ {σ : Type} [TokenFeed σ] (s : Session (Metered σ)) (xs : List Step),
        (s.run xs).2.feed.pulls = s.feed.pulls + (s.pulled xs).length) ∧
      (∀ source, HandsOut (Lexer.ofSource source) (lex source)
        (.eof (Lexer.ofSource source).tokens.2.line)) ∧
      ∀ ts, HandsOut (TokenQueue.ofList ts) ts (.eof (endLine ts)) := by
  refine ⟨fun s xs => s.accounted xs, fun s xs => ?_, fun source => ?_, ?_⟩
  · rw [(s.accounted xs).feed]
    exact Metered.pulls_advance s.feed _
  · exact Lexer.handsOut (Lexer.ofSource source)
  · exact TokenQueue.handsOut_ofList

end Session
end StatementLang
