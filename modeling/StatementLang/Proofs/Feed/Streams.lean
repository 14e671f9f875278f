import StatementLang.TokenFeed
/-!
# What a feed hands out

A feed is a stream of tokens: the ones it has, and then the same end of file for ever (`HandsOut`).
The stream of a queue ends on the line of its last token (`TokenQueue.handsOut_ofList`), that of
a lexer on the line where its text ends (`Lexer.handsOut`).
-/
namespace StatementLang

namespace TokenFeed

variable {σ : Type} [TokenFeed σ]

/-- The feed hands out `ts`, and behind them `last` at every pull. -/
def HandsOut (f : σ) (ts : List Token) (last : Token) : Prop := ∀ n, get f n = ts.getD n last

theorem get_zero (f : σ) : get f 0 = (pull f).1 := rfl

theorem get_succ (f : σ) (n : Nat) : get f (n + 1) = get (pull f).2 n := rfl

theorem handsOut_cons {f : σ} {t : Token} {ts : List Token} {last : Token} (h : (pull f).1 = t)
    (hts : HandsOut (pull f).2 ts last) : HandsOut f (t :: ts) last := by
  intro n
  cases n with
  | zero => rw [get_zero, h, List.getD_cons_zero]
  | succ n => rw [get_succ, hts, List.getD_cons_succ]

/-- A feed that a pull does not change hands out the same token for ever. -/
theorem handsOut_nil {f : σ} {last : Token} (h : pull f = (last, f)) : HandsOut f [] last := by
  intro n
  rw [List.getD_nil]
  induction n with
  | zero => rw [get_zero, h]
  | succ n ih => rw [get_succ, h, ih]

/-- What is handed out behind the tokens is of the kind of an end of file. -/
theorem kind_get {f : σ} {ts : List Token} {n : UInt32} (h : HandsOut f ts (.eof n)) (i : Nat) :
    (get f i).kind = (ts.map Token.kind).getD i .eof := by
  rw [h i, List.getD_eq_getElem?_getD, List.getD_eq_getElem?_getD, List.getElem?_map]
  cases ts[i]? <;> rfl

/-- The first tokens of a feed, one by one. -/
theorem take_eq_map_get (f : σ) (n : Nat) : take f n = (List.range n).map (get f) := by
  induction n generalizing f with
  | zero => rfl
  | succ n ih =>
    rw [take, ih, List.range_succ_eq_map, List.map_cons, List.map_map]
    rfl

end TokenFeed

open TokenFeed

/-! ## Queues -/

/-- The line on which a list of tokens ends: that of its last token. -/
def endLine (ts : List Token) : UInt32 := (ts.getLast?.map Token.line).getD 1

namespace TokenQueue

theorem handsOut (ts : List Token) (n : UInt32) :
    HandsOut (⟨ts, n⟩ : TokenQueue) ts (.eof ((ts.getLast?.map Token.line).getD n)) := by
  induction ts generalizing n with
  | nil => exact handsOut_nil rfl
  | cons t ts ih =>
    have hlast : ((t :: ts).getLast?.map Token.line).getD n =
        (ts.getLast?.map Token.line).getD t.line := by
      rw [List.getLast?_cons]
      cases ts.getLast? <;> rfl
    rw [hlast]
    exact handsOut_cons rfl (ih t.line)

theorem handsOut_ofList (ts : List Token) : HandsOut (ofList ts) ts (.eof (endLine ts)) :=
  handsOut ts 1

end TokenQueue

/-! ## Lexers -/

namespace Lexer

/-- Where no token is left, a lexer stays at the end of its text. -/
theorem next_of_next_eq_none {l l' : Lexer} (h : l.next = (none, l')) : l'.next = (none, l') := by
  induction l using next.induct with
  | case1 l hend =>
    rw [next_of_end hend] at h
    cases h
    exact next_of_end hend
  | case2 l x l₁ hx _ htrivia ih =>
    rw [next_of_trivia hx htrivia] at h
    exact ih h
  | case3 l x l₁ hx _ htoken =>
    rw [next_of_token hx (Bool.eq_false_iff.2 htoken)] at h
    cases h

theorem pull_of_end {l l' : Lexer} (h : l.next = (none, l')) :
    TokenFeed.pull l = (.eof l'.line, l') := by
  show l.pull = _
  rw [pull, h]

theorem pull_of_token {l l' : Lexer} {t : Token} (h : l.next = (some t, l')) :
    TokenFeed.pull l = (t, l') := by
  show l.pull = _
  rw [pull, h]

theorem handsOut (l : Lexer) : HandsOut l l.tokens.1 (.eof l.tokens.2.line) := by
  induction l using tokens.induct with
  | case1 l l' h =>
    rw [tokens_of_end h]
    intro n
    have hl' : HandsOut l' [] (.eof l'.line) := handsOut_nil (pull_of_end (next_of_next_eq_none h))
    cases n with
    | zero => rw [get_zero, pull_of_end h]; rfl
    | succ n => rw [get_succ, pull_of_end h, hl' n]; rfl
  | case2 l t l' h _ _ _ _ ih =>
    rw [tokens_of_token h]
    have hpull := pull_of_token h
    exact handsOut_cons (congrArg Prod.fst hpull) (congrArg Prod.snd hpull ▸ ih)

end Lexer
end StatementLang
