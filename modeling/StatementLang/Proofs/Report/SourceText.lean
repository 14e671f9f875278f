import StatementLang.Proofs.Lexical.Gaps
import StatementLang.Proofs.Lexical.Positions
import StatementLang.Proofs.Parser.Growth
import StatementLang.Proofs.Tree.Notices
import StatementLang.Report
/-!
# What is left of the source text

A parse of a source text accepts the first of its tokens (`accepted_eq_take`) and looks at the one
behind them. So an error is about that token, or about the end of the text, and its line is exact
(`lines_are_exact`); and the tree has the texts of the tokens accepted, which are pieces of the
source text with nothing but white space and comments between them (`texts_are_kept`).
-/
namespace StatementLang

open Event TokenFeed Lexical Lexer

/-! ## The tokens that a parse has accepted -/

/-- The number of terminals that a parse has accepted. -/
def Parse.acceptedCount {σ : Type} (p : Parse σ) : Nat := (terminals p.events).length

theorem accepted_eq_take (source : String) :
    terminals (parseText source).events = (lex source).take (parseText source).acceptedCount :=
  List.prefix_iff_eq_take.1 (Parser.accepted_prefix_of_handsOut (handsOut (ofSource source)) rfl)

theorem acceptedCount_le (source : String) :
    (parseText source).acceptedCount ≤ (lex source).length := by
  rw [Parse.acceptedCount, accepted_eq_take]
  exact List.length_take_le' ..

/-- An error is about the token behind those accepted; behind the last token is an end of file. -/
theorem error_about_next {source : String} {e : SyntaxError}
    (he : (parseText source).error = some e) :
    let next := (lex source).getD (parseText source).acceptedCount
      (.eof (ofSource source).tokens.2.line)
    e.line = next.line ∧ e.found = next.kind := by
  obtain ⟨v, s, hsteps, -, hp⟩ := Parser.exists_steps_halt (ofSource source)
  have hp : parseText source = Parser.conclude (v, s) := hp
  have hlook : s.lookahead = get (ofSource source) s.pos :=
    (Parser.on_of_steps hsteps (Parser.on_opened _)).lookahead
  rw [handsOut] at hlook
  rw [hp] at he ⊢
  obtain ⟨fault, -, rfl⟩ := Parser.exists_fault_of_error he
  exact ⟨congrArg Token.line hlook, congrArg Token.kind hlook⟩

/-! ## Lines -/

/-- **Lines are exact.** On its way through a source text with fewer than 2 ^ 32 - 1 line feeds a
lexer counts them without an overflow. The line of each token is one more than the line feeds before
its first character, and the line at the end one more than all of them; and the line of an error is
one or the other, by whether it is about a token or about the end. -/
theorem lines_are_exact {source : String} (h : lineFeeds source.toList < 2 ^ 32 - 1) :
    (∀ past l x l', Passes (ofSource source) past l → l.lexeme? = some (x, l') →
      l.line.toNat + lineFeeds x.chars < 2 ^ 32 ∧
        l'.line.toNat = l.line.toNat + lineFeeds x.chars) ∧
    (∀ i t, (lex source)[i]? = some t → ∃ before x, TokenAt source i before x ∧
      before ++ x.chars <+: source.toList ∧ t = x.toToken t.line ∧
      t.line.toNat = 1 + lineFeeds before) ∧
    (ofSource source).tokens.2.line.toNat = 1 + lineFeeds source.toList ∧
    ∀ e, (parseText source).error = some e →
      (e.found ≠ .eof ∧ ∃ before x, TokenAt source (parseText source).acceptedCount before x ∧
        e.found = x.kind ∧ e.line.toNat = 1 + lineFeeds before) ∨
      (e.found = .eof ∧ (parseText source).acceptedCount = (lex source).length ∧
        e.line.toNat = 1 + lineFeeds source.toList) := by
  refine ⟨fun past l x l' hl hx => toNat_line_of_lexeme? h hl hx, fun i t ht => ?_,
    line_tokens_ofSource h, fun e he => ?_⟩
  · obtain ⟨before, x, hplace, htoken, hline⟩ := exists_tokenAt h ht
    exact ⟨before, x, hplace, hplace.begins, htoken, hline⟩
  · obtain ⟨hline, hfound⟩ := error_about_next he
    rw [List.getD_eq_getElem?_getD] at hline hfound
    cases hnext : (lex source)[(parseText source).acceptedCount]? with
    | some t =>
      rw [hnext, Option.getD_some] at hline hfound
      obtain ⟨before, x, hplace, htoken, hexact⟩ := exists_tokenAt h hnext
      refine .inl ⟨?_, before, x, hplace, hfound.trans (congrArg Token.kind htoken), ?_⟩
      · rw [hfound]
        exact kind_ne_eof_of_mem_lex (List.mem_of_getElem? hnext)
      · rw [hline, hexact]
    | none =>
      rw [hnext, Option.getD_none] at hline hfound
      refine .inr ⟨hfound, ?_, ?_⟩
      · exact Nat.le_antisymm (acceptedCount_le source) (List.getElem?_eq_none_iff.1 hnext)
      · rw [hline]
        exact line_tokens_ofSource h

/-- A comment, a string that is not closed, a lone carriage return and an empty line; the error is
about the string. -/
theorem lines_are_exact_open_string :
    let source := "begin // it\n\r\n x := \"is\n\rend"
    lineFeeds source.toList < 2 ^ 32 - 1 ∧
    (∀ past l x l', Passes (ofSource source) past l → l.lexeme? = some (x, l') →
      l.line.toNat + lineFeeds x.chars < 2 ^ 32 ∧
        l'.line.toNat = l.line.toNat + lineFeeds x.chars) ∧
    (∀ i t, (lex source)[i]? = some t → ∃ before x, TokenAt source i before x ∧
      before ++ x.chars <+: source.toList ∧ t = x.toToken t.line ∧
      t.line.toNat = 1 + lineFeeds before) ∧
    (ofSource source).tokens.2.line.toNat = 1 + lineFeeds source.toList ∧
    ∀ e, (parseText source).error = some e →
      (e.found ≠ .eof ∧ ∃ before x, TokenAt source (parseText source).acceptedCount before x ∧
        e.found = x.kind ∧ e.line.toNat = 1 + lineFeeds before) ∨
      (e.found = .eof ∧ (parseText source).acceptedCount = (lex source).length ∧
        e.line.toNat = 1 + lineFeeds source.toList) := by
  intro source
  have h : lineFeeds source.toList < 2 ^ 32 - 1 := by decide
  exact ⟨h, lines_are_exact h⟩

/-! ## Texts -/

/-- **The source text is kept.** A source text is the texts of its tokens with gaps around them, of
white space and comments. Its parse, whether it succeeds or fails, leaves a tree whose text is that
of the tokens it accepted. -/
theorem texts_are_kept (source : String) :
    (∃ g gaps, gaps.length = (lex source).length ∧ (∀ a ∈ g :: gaps, IsGap a) ∧
      source = g ++ joinGaps (lex source) gaps) ∧
    ∃ t, SyntaxTree.ofNotices? (parseText source).notices = some t ∧
      (parseText source).acceptedCount ≤ (lex source).length ∧
      t.text =
        String.join (((lex source).take (parseText source).acceptedCount).map Token.text) := by
  constructor
  · obtain ⟨g, gaps, hlength, hall, htext⟩ := exists_gaps source.toList 1
    rw [← lex_eq] at hlength htext
    exact ⟨g, gaps, hlength, hall, String.ofList_toList.symm.trans htext⟩
  · obtain ⟨v, s, hsteps, -, hp⟩ := Parser.exists_steps_halt (ofSource source)
    have hopen := (Parser.nested_of_steps (Parser.within_some.2 (by decide)) hsteps).reads
    obtain ⟨t, ht⟩ := exists_ofEvents?_of_openRules hopen
    have hevents : (parseText source).events = s.events := congrArg Parse.events hp
    refine ⟨t, by rw [ofNotices?_notices, hevents, ht], acceptedCount_le source, ?_⟩
    rw [text_of_ofEvents? (hevents ▸ ht), accepted_eq_take]

end StatementLang
