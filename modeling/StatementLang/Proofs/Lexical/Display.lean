import StatementLang.Proofs.Lexical.Lexemes
/-!
# Tokens as dumps show them

A dump shows a token by the name of its kind and by its lexeme, if it has one. No kind that keeps
lexemes has a name that begins another, with the space before the lexeme. So the kind and the
lexeme can be read off again (`Token.display_inj`), if the token has a lexeme just where its kind
keeps one; the tokens of a source text do.
-/
namespace StatementLang

/-- What dumps show of all tokens of a kind. -/
def TokenKind.caption (k : TokenKind) : String := if k.keepsLexeme then k.name ++ " " else k.name

/-- The caption of a kind that keeps lexemes does not begin that of another kind. -/
theorem TokenKind.eq_of_prefix_caption {k l : TokenKind} (hk : k.keepsLexeme = true)
    (h : k.caption.toList <+: l.caption.toList) : k = l := by
  have key : ∀ k ∈ all, k.keepsLexeme = true → ∀ l ∈ all,
      k.caption.toList <+: l.caption.toList → k = l := by decide
  exact key k k.mem_all hk l l.mem_all h

/-- A name does not begin with a space. -/
theorem TokenKind.exists_name_eq_cons (k : TokenKind) :
    ∃ c s, k.name.toList = c :: s ∧ c ≠ ' ' := by
  cases k <;> exact ⟨_, _, rfl, by decide⟩

namespace Token

/-- The token has a lexeme just where its kind keeps one. -/
def WellFormed (t : Token) : Prop := t.lexeme.isSome = t.kind.keepsLexeme

theorem lexeme_eq_none {t : Token} (h : t.WellFormed) (hk : t.kind.keepsLexeme = false) :
    t.lexeme = none :=
  Option.isNone_iff_eq_none.1 (Option.isSome_eq_false_iff.1 (h.trans hk))

theorem display_eq {t : Token} (h : t.WellFormed) :
    t.display = t.kind.caption ++ t.lexeme.getD "" := by
  obtain ⟨k, n, x⟩ := t
  have h : x.isSome = k.keepsLexeme := h
  cases x with
  | some s => simp [display, TokenKind.caption, ← h]
  | none => simp [display, TokenKind.caption, ← h]

theorem exists_display_eq_cons (t : Token) : ∃ c s, t.display.toList = c :: s ∧ c ≠ ' ' := by
  obtain ⟨c, s, hname, hc⟩ := t.kind.exists_name_eq_cons
  unfold display
  split
  · rename_i x _
    exact ⟨c, s ++ ' ' :: x.toList, by simp [hname], hc⟩
  · exact ⟨c, s, hname, hc⟩

theorem caption_prefix_display {t : Token} (h : t.WellFormed) :
    t.kind.caption.toList <+: t.display.toList := by
  rw [display_eq h, String.toList_append]
  exact List.prefix_append _ _

theorem display_eq_caption {t : Token} (h : t.WellFormed) (hk : t.kind.keepsLexeme = false) :
    t.display = t.kind.caption := by
  rw [display_eq h, lexeme_eq_none h hk]
  exact String.append_empty

/-- A kind that keeps lexemes can be read off. -/
theorem kind_eq_of_keepsLexeme {t u : Token} (ht : t.WellFormed) (hu : u.WellFormed)
    (h : t.display = u.display) (hk : t.kind.keepsLexeme = true) : t.kind = u.kind := by
  have hpre : t.kind.caption.toList <+: u.display.toList := h ▸ caption_prefix_display ht
  cases hl : u.kind.keepsLexeme with
  | false =>
    rw [display_eq_caption hu hl] at hpre
    exact TokenKind.eq_of_prefix_caption hk hpre
  | true =>
    rcases List.prefix_or_prefix_of_prefix hpre (caption_prefix_display hu) with hle | hle
    · exact TokenKind.eq_of_prefix_caption hk hle
    · exact (TokenKind.eq_of_prefix_caption hl hle).symm

theorem kind_eq_of_display_eq {t u : Token} (ht : t.WellFormed) (hu : u.WellFormed)
    (h : t.display = u.display) : t.kind = u.kind := by
  cases hk : t.kind.keepsLexeme with
  | true => exact kind_eq_of_keepsLexeme ht hu h hk
  | false =>
    cases hl : u.kind.keepsLexeme with
    | true => exact (kind_eq_of_keepsLexeme hu ht h.symm hl).symm
    | false =>
      rw [display_eq_caption ht hk, display_eq_caption hu hl] at h
      simp only [TokenKind.caption, hk, hl] at h
      exact TokenKind.name_injective h

/-- What is shown of a token tells its kind and its lexeme. -/
theorem display_inj {t u : Token} (ht : t.WellFormed) (hu : u.WellFormed)
    (h : t.display = u.display) : t.kind = u.kind ∧ t.lexeme = u.lexeme := by
  have hkind := kind_eq_of_display_eq ht hu h
  refine ⟨hkind, ?_⟩
  have hsome : t.lexeme.isSome = u.lexeme.isSome := ht.trans (hkind ▸ hu.symm)
  rw [display_eq ht, display_eq hu, hkind, String.append_right_inj] at h
  cases ht : t.lexeme <;> cases hu : u.lexeme <;> simp_all

end Token

namespace Lexical

theorem wellFormed_toToken (x : Lexeme) (n : UInt32) : (x.toToken n).WellFormed := by
  unfold Lexeme.toToken Token.WellFormed
  cases x.kind.keepsLexeme <;> rfl

end Lexical

theorem Lexer.wellFormed_of_mem_tokens {l : Lexer} {t : Token} (h : t ∈ l.tokens.1) :
    t.WellFormed := by
  obtain ⟨s, x, r, n, -, -, rfl⟩ := exists_scan_of_mem_tokens h
  exact Lexical.wellFormed_toToken x n

end StatementLang
