import StatementLang.Proofs.Lexical.Positions
import StatementLang.Proofs.Parser.Kinds
import StatementLang.Transcript
/-!
# Parsing a text and parsing its tokens

A parse may pull its tokens from a lexer, or from a queue of all the tokens that the lexer has. Both
feeds hand out the same tokens and then ends of file, which differ in their lines: a lexer ends on
the last line of its text, a queue on the line of its last token. So the two parses differ in
nothing but the line of an error at the end (`prelexed_parses_alike`).
-/
namespace StatementLang

open TokenFeed Lexical

namespace Parser

/-! ## Feeds of the same tokens -/

section
variable {σ τ : Type} [TokenFeed σ] [TokenFeed τ] {f : σ} {g : τ} {ts : List Token} {m n : UInt32}

/-- Feeds of the same tokens hand out the same, but for the lines of their ends of file. -/
theorem get_eq_or_eof (hf : HandsOut f ts (.eof m)) (hg : HandsOut g ts (.eof n)) (i : Nat) :
    (get g i = get f i ∧ get f i ∈ ts) ∨ (get f i = .eof m ∧ get g i = .eof n) := by
  rw [hf i, hg i, List.getD_eq_getElem?_getD, List.getD_eq_getElem?_getD]
  cases h : ts[i]? with
  | some t => exact .inl ⟨rfl, List.mem_of_getElem? h⟩
  | none => exact .inr ⟨rfl, rfl⟩

theorem kind_get_eq (hf : HandsOut f ts (.eof m)) (hg : HandsOut g ts (.eof n)) (i : Nat) :
    (get g i).kind = (get f i).kind := by
  rw [kind_get hf, kind_get hg]

end

/-- The tokens of a text and of its list are on the same lines, but for the end of file. -/
theorem line_get {source : String} (h : lineFeeds source.toList < 2 ^ 32 - 1) (i : Nat) :
    let t := get (Lexer.ofSource source) i
    let t' := get (TokenQueue.ofList (lex source)) i
    (t.kind ≠ .eof → t.line = t'.line) ∧ (t.kind = .eof →
      t.line.toNat = 1 + lineFeeds source.toList ∧ t'.line = endLine (lex source)) := by
  intro t t'
  rcases get_eq_or_eof (Lexer.handsOut (Lexer.ofSource source))
    (TokenQueue.handsOut_ofList (lex source)) i with ⟨hsame, hmem⟩ | ⟨hend, hend'⟩
  · refine ⟨fun _ => congrArg Token.line hsame.symm, fun heof => ?_⟩
    exact absurd heof (kind_ne_eof_of_mem_lex hmem)
  · refine ⟨fun hne => absurd (congrArg Token.kind hend) hne, fun _ => ⟨?_, ?_⟩⟩
    · exact (congrArg (fun t => t.line.toNat) hend).trans (Lexer.line_tokens_ofSource h)
    · exact congrArg Token.line hend'

/-- A transcript hears what a parse tells, and whether it fails. -/
theorem foldl_hear_eq {σ τ : Type} {p : Parse σ} {q : Parse τ} (he : p.events = q.events)
    (herror : p.error = none ↔ q.error = none) (log : Transcript) :
    p.notices.foldl Transcript.hear log = q.notices.foldl Transcript.hear log := by
  have hsome : p.error.isSome = q.error.isSome := by
    rw [Bool.eq_iff_iff, Option.isSome_iff_ne_none, Option.isSome_iff_ne_none]
    exact not_congr herror
  rw [← Transcript.append_eq_foldl_hear, ← Transcript.append_eq_foldl_hear, Transcript.append,
    Transcript.append, he, hsome]

/-- **A text and its tokens parse alike.** The parse that pulls from the lexer and the one that
pulls from the list of all its tokens tell the same events, leave the same in every transcript, and
both succeed or both fail. If they fail, they expect and find the same on the same line. Only where
they find the end of the input, the one says the last line of the text, the other the line of the
last token. -/
theorem prelexed_parses_alike {source : String} (h : lineFeeds source.toList < 2 ^ 32 - 1) :
    let p := parse (Lexer.ofSource source)
    let q := parse (TokenQueue.ofList (lex source))
    p.events = q.events ∧
      (∀ log : Transcript,
        p.notices.foldl Transcript.hear log = q.notices.foldl Transcript.hear log) ∧
      (p.error = none ↔ q.error = none) ∧
      ∀ e e', p.error = some e → q.error = some e' →
        e.expected = e'.expected ∧ e.found = e'.found ∧ (e.found ≠ .eof → e.line = e'.line) ∧
        (e.found = .eof → e.line.toNat = 1 + lineFeeds source.toList ∧
          e'.line = endLine (lex source)) := by
  intro p q
  have hf : HandsOut (Lexer.ofSource source) (lex source)
      (.eof (Lexer.ofSource source).tokens.2.line) := Lexer.handsOut _
  have hg := TokenQueue.handsOut_ofList (lex source)
  obtain ⟨v, s, s', ⟨hsteps, hp⟩, ⟨hsteps', hq⟩, alike, hkind⟩ :=
    exists_alike_ends (kind_get_eq hf hg)
  have hp : p = conclude (v, s) := hp
  have hq : q = conclude (v, s') := hq
  -- both have accepted the same number of tokens of one list
  have hone : Within (some maxDepth) 1 := within_some.2 (by decide)
  have hpre : s.accepted <+: lex source := accepted_prefix_of_steps hone hf rfl hsteps
  have hpre' : s'.accepted <+: lex source := accepted_prefix_of_steps hone hg rfl hsteps'
  have haccepted : s'.accepted = s.accepted :=
    (List.prefix_of_prefix_length_le hpre' hpre (Nat.le_of_eq alike.pos)).eq_of_length alike.pos
  have hevents : p.events = q.events := by
    rw [hp, hq]
    exact (alike.events_eq haccepted).symm
  have herror : p.error = none ↔ q.error = none := by
    rw [error_eq_none_iff, error_eq_none_iff, hp, hq]
    rfl
  refine ⟨hevents, foldl_hear_eq hevents herror, herror, fun e e' he he' => ?_⟩
  rw [hp] at he
  rw [hq] at he'
  obtain ⟨fault, rfl, rfl⟩ := exists_fault_of_errors he he'
  have hlook : s.lookahead = get (Lexer.ofSource source) s.pos :=
    (on_of_steps hsteps (on_opened _)).lookahead
  have hlook' : s'.lookahead = get (TokenQueue.ofList (lex source)) s.pos :=
    alike.pos ▸ (on_of_steps hsteps' (on_opened _)).lookahead
  refine ⟨rfl, hkind.symm, ?_⟩
  show (s.lookahead.kind ≠ .eof → s.lookahead.line = s'.lookahead.line) ∧
    (s.lookahead.kind = .eof → s.lookahead.line.toNat = 1 + lineFeeds source.toList ∧
      s'.lookahead.line = endLine (lex source))
  rw [hlook, hlook']
  exact line_get h s.pos

/-- `begin x :=` and two empty lines: the text ends on its third line, its last token is on the
first. -/
theorem prelexed_parses_alike_cut_off :
    let source := "begin x :=\n\n"
    let p := parse (Lexer.ofSource source)
    let q := parse (TokenQueue.ofList (lex source))
    lineFeeds source.toList < 2 ^ 32 - 1 ∧ p.events = q.events ∧
      (∀ log : Transcript,
        p.notices.foldl Transcript.hear log = q.notices.foldl Transcript.hear log) ∧
      (p.error = none ↔ q.error = none) ∧
      ∀ e e', p.error = some e → q.error = some e' →
        e.expected = e'.expected ∧ e.found = e'.found ∧ (e.found ≠ .eof → e.line = e'.line) ∧
        (e.found = .eof → e.line.toNat = 1 + lineFeeds source.toList ∧
          e'.line = endLine (lex source)) := by
  intro source p q
  have h : lineFeeds source.toList < 2 ^ 32 - 1 := by decide
  exact ⟨h, prelexed_parses_alike h⟩

end Parser
end StatementLang
