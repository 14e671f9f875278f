import StatementLang.Lexical.Lexer
/-!
# Token feeds

A token feed hands out one token per pull and takes none back; when it has no more it hands out
end-of-file tokens for ever. The lexer is one, a queue of ready-made tokens is another.
-/
namespace StatementLang

/-- Something that tokens are pulled from (`TokenSource`, with `next_token`). The number `left` goes
down with every token that is not an end of file, so only finitely many of those come; no token
depends on it. -/
class TokenFeed (σ : Type) where
  pull : σ → Token × σ
  left : σ → Nat
  left_pull_le (s : σ) : left (pull s).2 ≤ left s
  left_pull_lt (s : σ) : (pull s).1.kind ≠ .eof → left (pull s).2 < left s

namespace TokenFeed

variable {σ : Type} [TokenFeed σ]

/-- The feed after `n` pulls. -/
def advance (s : σ) : Nat → σ
  | 0 => s
  | n + 1 => advance (pull s).2 n

/-- The first `n` tokens of a feed. -/
def take (s : σ) : Nat → List Token
  | 0 => []
  | n + 1 => (pull s).1 :: take (pull s).2 n

/-- The token that comes after `n` pulls. -/
def get (s : σ) (n : Nat) : Token := (pull (advance s n)).1

theorem advance_add (s : σ) (m n : Nat) : advance s (m + n) = advance (advance s m) n := by
  induction m generalizing s with
  | zero => simp [advance]
  | succ m ih => simp [Nat.succ_add, advance, ih]

theorem take_add (s : σ) (m n : Nat) : take s (m + n) = take s m ++ take (advance s m) n := by
  induction m generalizing s with
  | zero => simp [advance, take]
  | succ m ih => simp [Nat.succ_add, advance, take, ih]

end TokenFeed

/-! ## The lexer as a feed -/

namespace Lexer

/-- The next token, or an end of file on the line where the text ends (`next_token`). -/
def pull (l : Lexer) : Token × Lexer :=
  match l.next with
  | (some t, l') => (t, l')
  | (none, l') => (.eof l'.line, l')

theorem length_pull_le (l : Lexer) : l.pull.2.rest.length ≤ l.rest.length := by
  have := length_le_of_next l
  unfold pull
  split <;> simp_all

theorem length_pull_lt (l : Lexer) (h : l.pull.1.kind ≠ .eof) :
    l.pull.2.rest.length < l.rest.length := by
  unfold pull at h ⊢
  split at h
  · rename_i t l' hn
    have := length_lt_of_next (l := l) (t := t) (by rw [hn])
    rwa [hn] at this
  · simp at h

instance : TokenFeed Lexer where
  pull := pull
  left l := l.rest.length
  left_pull_le := length_pull_le
  left_pull_lt := length_pull_lt

end Lexer

/-! ## A queue of tokens as a feed -/

/-- Tokens that are ready, and the line of the last one that was handed out (`TokenStream`). -/
structure TokenQueue where
  tokens : List Token
  line : UInt32
  deriving DecidableEq, Repr

namespace TokenQueue

/-- A queue of `tokens`, before the first of them. -/
def ofList (tokens : List Token) : TokenQueue := ⟨tokens, 1⟩

/-- The next token, or an end of file on the line of the last one (`next_token`). -/
def pull (s : TokenQueue) : Token × TokenQueue :=
  match s.tokens with
  | [] => (.eof s.line, s)
  | t :: ts => (t, ⟨ts, t.line⟩)

@[simp] theorem pull_nil (n : UInt32) : pull ⟨[], n⟩ = (.eof n, ⟨[], n⟩) := rfl

@[simp] theorem pull_cons (t : Token) (ts : List Token) (n : UInt32) :
    pull ⟨t :: ts, n⟩ = (t, ⟨ts, t.line⟩) := rfl

instance : TokenFeed TokenQueue where
  pull := pull
  left s := s.tokens.length
  left_pull_le s := by
    obtain ⟨ts, n⟩ := s
    cases ts <;> simp
  left_pull_lt s h := by
    obtain ⟨ts, n⟩ := s
    cases ts <;> simp_all

end TokenQueue
end StatementLang
