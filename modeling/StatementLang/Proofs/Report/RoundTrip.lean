import StatementLang.Proofs.Lexical.Spelling
import StatementLang.Proofs.Parser.Acceptance
import StatementLang.Proofs.Tree.Programs
import StatementLang.Report
/-!
# Printing and parsing

A program is printed as the texts of its tokens, with single spaces between them. When every token
is spelled as its kind asks, the printed text is lexed as the tokens of the program
(`lex_spelling`), and parsing it gives the program back (`parse_print`).
-/
namespace StatementLang

open TokenFeed Lexical Pattern

namespace ParseTree

/-- The texts of the tokens, joined by single spaces. -/
def print (t : ParseTree) : String := " ".intercalate (t.yield.map Token.text)

/-- A printed program is read as its tokens. -/
theorem reads_print {t : ParseTree} (h : IsProgram t) (hs : ∀ a ∈ t.yield, a.WellSpelled) :
    Reads (Lexer.ofSource t.print) 0 (t.map Token.reread).yield := by
  have htokens : (Lexer.ofSource t.print).tokens.1 = (t.map Token.reread).yield := by
    rw [yield_map]
    exact lex_spelling hs h.isTrivia_eq_false
  exact reads_of_handsOut (Lexer.handsOut _) (htokens ▸ List.prefix_rfl)

theorem toSyntax_reread {t : ParseTree} (h : IsProgram t) (hs : ∀ a ∈ t.yield, a.WellSpelled) :
    (t.map Token.reread).toSyntax = t.toSyntax := by
  refine toSyntax_map fun a ha => ?_
  rw [SyntaxTree.ofToken, Token.kind_reread,
    Token.text_reread (hs a ha) (h.isTrivia_eq_false a ha)]
  rfl

end ParseTree

/-- A parse without an error reports nothing. -/
theorem Parse.notices_of_error_eq_none {σ : Type} {p : Parse σ} (h : p.error = none) :
    p.notices = p.events.map .event := by
  have hv : p.verdict = .accepted := Parser.error_eq_none_iff.1 h
  rw [notices, hv, List.append_nil]

/-- **Printing and parsing back.** Take any program that nests at most 1024 rules and whose tokens
are spelled as their kinds ask. Its printed text has a parse without an error, and what that parse
tells describes the syntax tree of the program below the root: the same rules, and tokens of the
same kinds and texts. -/
theorem parse_print {t : ParseTree} (h : IsProgram t) (room : t.height ≤ 1024)
    (hs : ∀ a ∈ t.yield, a.WellSpelled) :
    (parseText t.print).error = none ∧
      SyntaxTree.ofNotices? (parseText t.print).notices = some (.node .root [t.toSyntax]) := by
  -- what is read is the program with its tokens on the first line
  have hprogram : IsProgram (t.map Token.reread) := h.map fun a _ => a.kind_reread
  have hheight : (t.map Token.reread).height ≤ maxDepth := by
    rw [ParseTree.height_map]
    exact room
  obtain ⟨herror, hevents⟩ :=
    Parser.parse_of_program hprogram (ParseTree.reads_print h hs) hheight
  refine ⟨herror, ?_⟩
  rw [parseText, Parse.notices_of_error_eq_none herror, SyntaxTree.ofNotices?_map_event, hevents,
    ParseTree.ofEvents?_events, ParseTree.toSyntax_reread h hs]

/-- `begin x := "if ; // 1" end`, with its tokens on several lines. -/
theorem parse_print_assignment :
    let assignment : ParseTree := .node .assignment
      [.leaf ⟨.ident, 8, some "x"⟩, .leaf ⟨.assign, 8, none⟩,
       .leaf ⟨.string, 9, some "\"if ; // 1\""⟩]
    let t : ParseTree := .node .statementPart
      [.leaf ⟨.kwBegin, 7, none⟩, .node .statementList [.node .statement [assignment]],
       .leaf ⟨.kwEnd, 9, none⟩]
    (IsProgram t ∧ t.height ≤ 1024 ∧ ∀ a ∈ t.yield, a.WellSpelled) ∧
      (parseText t.print).error = none ∧
        SyntaxTree.ofNotices? (parseText t.print).notices = some (.node .root [t.toSyntax]) := by
  intro assignment t
  have hassignment : assignment.Derives := .node .assignText (by simp [ParseTree.Derives.leaf])
  have hstatement : (ParseTree.node .statement [assignment]).Derives :=
    .node (.statement (r := .assignment) (by decide)) (List.forall_mem_singleton.2 hassignment)
  have hlist : (ParseTree.node .statementList [.node .statement [assignment]]).Derives :=
    .node (.statementList 0) (List.forall_mem_singleton.2 hstatement)
  have hprogram : IsProgram t :=
    ⟨.node .statementPart (by simp [ParseTree.Derives.leaf, hlist]), rfl⟩
  have hx : Token.WellSpelled ⟨.ident, 8, some "x"⟩ :=
    ⟨⟨_, rfl, .seq (s := ['x']) (.char rfl) .stop⟩, by decide⟩
  have hstring : Token.WellSpelled ⟨.string, 9, some "\"if ; // 1\""⟩ :=
    ⟨⟨_, rfl, .seq (s := ['"']) (matches_literal_iff.2 rfl)
      (.seq (s := "if ; // 1".toList) (matches_many_char_iff.2 rfl) (matches_literal_iff.2 rfl))⟩,
      by decide⟩
  have hs : ∀ a ∈ t.yield, a.WellSpelled := by
    simp only [t, assignment, ParseTree.yield, ParseTree.yieldAll, List.cons_append,
      List.nil_append, List.forall_mem_cons]
    exact ⟨wellSpelled_of_fixed (by decide) 7, hx, wellSpelled_of_fixed (by decide) 8, hstring,
      wellSpelled_of_fixed (by decide) 9, List.forall_mem_nil _⟩
  have room : t.height ≤ 1024 := by decide
  exact ⟨⟨hprogram, room, hs⟩, parse_print hprogram room hs⟩

end StatementLang
