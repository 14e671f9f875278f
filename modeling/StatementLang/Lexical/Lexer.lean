import StatementLang.Token
import StatementLang.Lexical.Lexeme
/-!
# The lexer

A lexer is a source text from some point on and the line of that point. It hands out one token at a
time; white space and comments between tokens are passed over, but their lines count. Lines end at
line feeds only and are numbered in 32 bits; that a count beyond these may end the run is left out,
and so are the lines in the log about input that is no token.
-/
namespace StatementLang.Lexical

/-- The line feeds in a text. -/
def lineFeeds (s : List Char) : Nat := s.count '\n'

/-- The lexemes of a text, nothing left out. -/
def lexemes (s : List Char) : List Lexeme :=
  match h : scan s with
  | none => []
  | some (x, r) =>
    have := length_lt_of_scan h
    x :: lexemes r
termination_by s.length

/-- The token that a lexeme becomes when it starts on line `n`. -/
def Lexeme.toToken (x : Lexeme) (n : UInt32) : Token :=
  ⟨x.kind, n, if x.kind.keepsLexeme then some (String.ofList x.chars) else none⟩

end Lexical

open Lexical

structure Lexer where
  rest : List Char
  line : UInt32
  deriving DecidableEq, Repr

namespace Lexer

/-- Before the first character of a source text (`new`). -/
def ofSource (source : String) : Lexer := ⟨source.toList, 1⟩

/-- The next lexeme, and the lexer after it. -/
def lexeme? (l : Lexer) : Option (Lexeme × Lexer) :=
  (scan l.rest).map fun (x, r) => (x, ⟨r, l.line + UInt32.ofNat (lineFeeds x.chars)⟩)

theorem length_lt_of_lexeme? {l l' : Lexer} {x : Lexeme} (h : l.lexeme? = some (x, l')) :
    l'.rest.length < l.rest.length := by
  obtain ⟨⟨y, r⟩, hy, he⟩ := Option.map_eq_some_iff.1 h
  cases he
  exact length_lt_of_scan hy

/-- The next token, and the lexer after it (`next`). Without a token left the lexer moves to the end
of its text. -/
def next (l : Lexer) : Option Token × Lexer :=
  match h : l.lexeme? with
  | none => (none, l)
  | some (x, l') =>
    have := length_lt_of_lexeme? h
    if x.kind.isTrivia then next l' else (some (x.toToken l.line), l')
termination_by l.rest.length

theorem next_of_end {l : Lexer} (h : l.lexeme? = none) : l.next = (none, l) := by
  rw [next]; split <;> simp_all

theorem next_of_trivia {l l' : Lexer} {x : Lexeme} (h : l.lexeme? = some (x, l'))
    (hx : x.kind.isTrivia) : l.next = l'.next := by
  rw [next]; split <;> simp_all

theorem next_of_token {l l' : Lexer} {x : Lexeme} (h : l.lexeme? = some (x, l'))
    (hx : x.kind.isTrivia = false) : l.next = (some (x.toToken l.line), l') := by
  rw [next]; split <;> simp_all

theorem length_le_of_next (l : Lexer) : l.next.2.rest.length ≤ l.rest.length := by
  induction l using next.induct with
  | case1 l h => exact Nat.le_of_eq (congrArg (·.2.rest.length) (next_of_end h))
  | case2 l x l' h hlt hx ih => rw [next_of_trivia h hx]; omega
  | case3 l x l' h hlt hx =>
    rw [next_of_token h (by simpa using hx)]; exact Nat.le_of_lt hlt

theorem length_lt_of_next {l : Lexer} {t : Token} (ht : l.next.1 = some t) :
    l.next.2.rest.length < l.rest.length := by
  induction l using next.induct with
  | case1 l h => rw [next_of_end h] at ht; cases ht
  | case2 l x l' h hlt hx ih =>
    rw [next_of_trivia h hx] at ht ⊢; exact Nat.lt_trans (ih ht) hlt
  | case3 l x l' h hlt hx => rw [next_of_token h (by simpa using hx)]; exact hlt

/-- All tokens that are left, and the lexer at the end of its text. -/
def tokens (l : Lexer) : List Token × Lexer :=
  match h : l.next with
  | (none, l') => ([], l')
  | (some t, l') =>
    have : l'.rest.length < l.rest.length := by
      have := length_lt_of_next (l := l) (t := t) (by rw [h])
      rwa [h] at this
    let (ts, last) := tokens l'
    (t :: ts, last)
termination_by l.rest.length

theorem tokens_of_end {l l' : Lexer} (h : l.next = (none, l')) : l.tokens = ([], l') := by
  rw [tokens]; split <;> simp_all

theorem tokens_of_token {l l' : Lexer} {t : Token} (h : l.next = (some t, l')) :
    l.tokens = (t :: l'.tokens.1, l'.tokens.2) := by
  rw [tokens]; split <;> simp_all

end Lexer

/-- The tokens of a source text, without one for its end (`lex`). -/
def lex (source : String) : List Token := (Lexer.ofSource source).tokens.1

end StatementLang
