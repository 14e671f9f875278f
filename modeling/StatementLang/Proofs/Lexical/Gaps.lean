import StatementLang.Proofs.Lexical.LongestMatch
/-!
# Between tokens

What a lexer passes without making tokens of it is white space and comments (`IsGap`), and a token
has the text that it was read from, whether it keeps it or has it from its kind
(`text_toToken_of_scan`). So a source text is the texts of its tokens with gaps around them
(`exists_gaps`).
-/
namespace StatementLang

namespace Lexical

/-- A row of white space and comments, perhaps an empty one. -/
def IsGap (g : String) : Prop :=
  ∃ pieces : List (List Char), g.toList = pieces.flatten ∧
    ∀ w ∈ pieces, Describes .whitespace w ∨ Describes .lineComment w

theorem isGap_empty : IsGap "" := ⟨[], rfl, by simp⟩

theorem IsGap.cons {w : List Char} {g : String}
    (hw : Describes .whitespace w ∨ Describes .lineComment w) (hg : IsGap g) :
    IsGap (String.ofList w ++ g) := by
  obtain ⟨pieces, hpieces, hall⟩ := hg
  refine ⟨w :: pieces, ?_, List.forall_mem_cons.2 ⟨hw, hall⟩⟩
  simp [hpieces]

/-- The texts of some tokens, with a gap behind each. -/
def joinGaps (ts : List Token) (gaps : List String) : String :=
  String.join (List.zipWith (fun t g => t.text ++ g) ts gaps)

theorem joinGaps_cons (t : Token) (ts : List Token) (g : String) (gaps : List String) :
    joinGaps (t :: ts) (g :: gaps) = t.text ++ (g ++ joinGaps ts gaps) := by
  rw [joinGaps, List.zipWith_cons_cons, String.join_cons, String.append_assoc]
  rfl

variable {s r : List Char} {x : Lexeme}

/-! ## Lexemes and their texts -/

/-- A lexeme that makes no token is a piece of a gap. -/
theorem gap_of_scan (h : scan s = some (x, r)) (hx : x.kind.isTrivia = true) :
    Describes .whitespace x.chars ∨ Describes .lineComment x.chars := by
  have htrivia : ∀ k ∈ TokenKind.all, k.isTrivia = true → k = .whitespace ∨ k = .lineComment := by
    decide
  rcases htrivia x.kind (TokenKind.mem_all _) hx with hk | hk
  · exact .inl (hk ▸ describes_of_scan h (by rw [hk]; decide))
  · exact .inr (hk ▸ describes_of_scan h (by rw [hk]; decide))

/-- A kind of token that drops its lexeme has one spelling, and that is its name. -/
theorem fixed_of_scan (h : scan s = some (x, r)) (hx : x.kind.isTrivia = false)
    (hdrops : x.kind.keepsLexeme = false) : x.chars = x.kind.name.toList := by
  have herror : x.kind ≠ .error := by
    intro hk
    rw [hk] at hdrops
    cases hdrops
  have hvaried : ∀ k ∈ [TokenKind.whitespace, .lineComment, .ident, .number, .string],
      k.isTrivia = true ∨ k.keepsLexeme = true := by decide
  have hdescribed := describes_of_scan h herror
  rcases mem_of_describes hdescribed with hk | hk
  · exact (describes_fixed_iff hk).1 hdescribed
  · rcases hvaried x.kind hk with h' | h'
    · rw [hx] at h'
      cases h'
    · rw [hdrops] at h'
      cases h'

theorem text_toToken_of_scan (h : scan s = some (x, r)) (hx : x.kind.isTrivia = false)
    (n : UInt32) : (x.toToken n).text = String.ofList x.chars := by
  rw [Token.text, Lexeme.toToken]
  cases hkeeps : x.kind.keepsLexeme with
  | true => rfl
  | false =>
    rw [fixed_of_scan h hx hkeeps]
    exact String.ofList_toList.symm

/-! ## The gaps of a text -/

theorem exists_gaps (s : List Char) (n : UInt32) :
    ∃ g gaps, gaps.length = (tokensFrom n (lexemes s)).length ∧ (∀ a ∈ g :: gaps, IsGap a) ∧
      String.ofList s = g ++ joinGaps (tokensFrom n (lexemes s)) gaps := by
  fun_induction lexemes s generalizing n with
  | case1 s hs =>
    obtain rfl := eq_nil_of_scan hs
    exact ⟨"", [], rfl, by simpa using isGap_empty, rfl⟩
  | case2 s x r hs _ ih =>
    obtain ⟨g, gaps, hlength, hall, htext⟩ := ih (n + UInt32.ofNat (lineFeeds x.chars))
    rw [← append_of_scan hs, String.ofList_append, htext, tokensFrom]
    by_cases hx : x.kind.isTrivia = true
    · -- the piece goes to the gap before the next token
      rw [if_pos hx]
      obtain ⟨hg, hgaps⟩ := List.forall_mem_cons.1 hall
      refine ⟨String.ofList x.chars ++ g, gaps, hlength, ?_, (String.append_assoc ..).symm⟩
      exact List.forall_mem_cons.2 ⟨.cons (gap_of_scan hs hx) hg, hgaps⟩
    · rw [if_neg hx]
      refine ⟨"", g :: gaps, congrArg Nat.succ hlength,
        List.forall_mem_cons.2 ⟨isGap_empty, hall⟩, ?_⟩
      rw [joinGaps_cons, text_toToken_of_scan hs (Bool.eq_false_iff.2 hx), String.empty_append]

end Lexical
end StatementLang
