import StatementLang.Proofs.Config.Numbers
import StatementLang.Proofs.Lexical.Spelling
import StatementLang.Proofs.Parser.Progress
import StatementLang.Proofs.Program.Verdict
import StatementLang.Proofs.Report.Levels
/-!
# The width of an indentation

The lines of the events are indented by the open rules around them, of which there are 1024 at most.
So the widths count in 64 bits for every parse if the spaces for a level are fewer than 2 ^ 54. A
program that nests as fast as it can has a terminal within 1024 rules, and there any wider
indentation overflows, from the command line or from a configuration file (`indentation_of_parse`).
-/
namespace StatementLang

open Event Lexical TokenFeed Transcript

/-- The transcript that a parse of some tokens leaves. -/
def Transcript.ofTokens (ts : List Token) : Transcript :=
  (parse (TokenQueue.ofList ts)).notices.foldl hear .empty

theorem Transcript.events_ofTokens (ts : List Token) :
    (ofTokens ts).events = (parse (TokenQueue.ofList ts)).events := events_foldl_hear _

/-! ## The deepest program -/

/-- A program that nests as fast as it can. -/
def deepestSource : String := " ".intercalate (Parser.fastest.map TokenKind.name)

/-- Kinds with one spelling are lexed from their names. -/
theorem map_kind_lex {ks : List TokenKind} (h : ∀ k ∈ ks, k ∈ keywords ++ symbols) :
    (lex (" ".intercalate (ks.map TokenKind.name))).map Token.kind = ks := by
  have htrivia : ∀ k ∈ keywords ++ symbols, k.isTrivia = false := by decide
  let ts : List Token := ks.map fun k => ⟨k, 1, none⟩
  have hlex : lex (" ".intercalate (ts.map Token.text)) = ts.map Token.reread := by
    refine lex_spelling (fun t ht => ?_) fun t ht => ?_
    · obtain ⟨k, hk, rfl⟩ := List.mem_map.1 ht
      exact wellSpelled_of_fixed (h k hk) 1
    · obtain ⟨k, hk, rfl⟩ := List.mem_map.1 ht
      exact htrivia k (h k hk)
  have htexts : ts.map Token.text = ks.map TokenKind.name := by
    rw [List.map_map]
    rfl
  rw [← htexts, hlex, List.map_map, List.map_map]
  exact List.map_id ks

theorem kind_get_deepestSource (i : Nat) :
    (get (Lexer.ofSource deepestSource) i).kind = Parser.fastest.getD i .eof := by
  have hkinds : ∀ k ∈ Parser.fastest, k ∈ keywords ++ symbols := by
    intro k hk
    rcases List.mem_cons.1 hk with rfl | hk
    · decide
    · rw [List.eq_of_mem_replicate hk]
      decide
  have hlex : (lex deepestSource).map Token.kind = Parser.fastest := by
    rw [deepestSource, map_kind_lex hkinds]
  rw [kind_get (Lexer.handsOut _), ← lex, hlex]

/-- A feed of these kinds has a terminal within 1024 rules. -/
theorem exists_deepest_row {σ : Type} [TokenFeed σ] {f : σ}
    (h : ∀ i < Parser.fastest.length, (get f i).kind = Parser.fastest.getD i .eof) :
    ∃ t, (1024, .terminal t) ∈ levels 0 (parse f).events := by
  obtain ⟨-, es, t, rules, hevents, hopen, hlength, -⟩ := Parser.exists_deepest h
  rw [hevents] at hopen
  obtain ⟨before, after, hbefore, hturns, hrules⟩ := exists_turns hopen
  cases hrules
  have hdepth : before.length = 1024 := by
    rw [← hturns.1, hlength]
    rfl
  have hrow : (levels 0 (es ++ [.terminal t]))[es.length]? = some (before.length, .terminal t) :=
    getElem?_levels hbefore hturns
  rw [hdepth] at hrow
  rw [hevents]
  exact ⟨t, List.mem_of_getElem? hrow⟩

/-- There the width of an indentation overflows, unless it is narrow. -/
theorem not_widthsFit {σ : Type} [TokenFeed σ] {f : σ}
    (h : ∀ i < Parser.fastest.length, (get f i).kind = Parser.fastest.getD i .eof)
    {indent : UInt64} (hindent : 2 ^ 54 ≤ indent.toNat) :
    ¬ WidthsFit indent (parse f).events := by
  intro hfit
  obtain ⟨t, hrow⟩ := exists_deepest_row h
  have hlt : 1024 * indent.toNat < UInt64.size := hfit _ hrow
  have hsize : UInt64.size = 1024 * 2 ^ 54 := by decide
  omega

theorem not_widthsFit_deepestSource {indent : UInt64} (hindent : 2 ^ 54 ≤ indent.toNat) :
    ¬ WidthsFit indent (parseText deepestSource).events := by
  rw [parseText]
  exact not_widthsFit (fun i _ => kind_get_deepestSource i) hindent

theorem exists_not_widthsFit {indent : UInt64} (hindent : 2 ^ 54 ≤ indent.toNat) :
    ∃ ts, ¬ WidthsFit indent (ofTokens ts).events := by
  let ts : List Token := Parser.fastest.map fun k => ⟨k, 1, none⟩
  have hkinds : Parser.fastest <+: ts.map Token.kind := by
    rw [List.map_map]
    exact (List.map_id Parser.fastest).symm ▸ List.prefix_rfl
  refine ⟨ts, ?_⟩
  rw [events_ofTokens]
  exact not_widthsFit (fun i hi => Parser.kind_get_of_prefix hkinds hi) hindent

/-! ## Runs -/

theorem report?_deepestSource {s : OutputSettings} (hformat : s.format = .events)
    (hindent : 2 ^ 54 ≤ s.indent.toNat) : report? s deepestSource = none := by
  cases hrender : renderEvents? s.layout (parseText deepestSource).events with
  | none => simp only [report?_eq, dump?, hformat, hrender, Option.map_none]
  | some dump =>
    exact absurd (renderEvents?_eq_some hrender).1 (not_widthsFit_deepestSource hindent)

namespace Program

theorem ParseRun.overflows {file : String} (r : ParseRun file deepestSource)
    (hformat : r.settings.format = .events) (hindent : 2 ^ 54 ≤ r.settings.indent.toNat) :
    r.outcome = ⟨.overflow, "", ""⟩ := by
  rw [r.outcome_eq, parsed, report?_deepestSource hformat hindent]

theorem ParseRun.settings_eq_of_indentationFile {file source : String} (r : ParseRun file source)
    {indent : UInt64} (hname : r.files.isFile "descent.toml" = true)
    (htext : r.files.readText "descent.toml" = .ok (Config.indentationFile indent.toNat)) :
    r.settings = OutputSettings.override ⟨.events, indent, false⟩ r.overrides := by
  have hfound : Config.firstFile? r.files Config.fileNames = some "descent.toml" := by
    simp only [Config.firstFile?, Config.fileNames, hname, bind, pure, if_true]
  have hread : Config.ofText? (some "descent.toml") (Config.indentationFile indent.toNat) =
      some ⟨some "descent.toml", ⟨.events, indent, false⟩⟩ :=
    Config.ofText?_indentationFile _ indent
  rw [r.settings_eq hfound htext, Config.ofText, hread]
  rfl

section
variable {fs : FileSystem Id} {file : String} (hne : file ≠ "")
  (hdash : file.toList.head? ≠ some '-') (hfile : fs.readText file = .ok deepestSource)
  {indent : UInt64} (hindent : 2 ^ 54 ≤ indent.toNat)

include hne hdash hfile hindent

/-- The command line asks for the indentation. -/
theorem run_overflows_of_option (verbose lines : Bool) :
    Id.run (run fs (CommandLine.parseWords verbose file ⟨some .events, some indent, lines⟩)) =
      ⟨.overflow, "", ""⟩ := by
  let r : ParseRun file deepestSource := ⟨fs, _, verbose, ⟨some .events, some indent, lines⟩,
    CommandLine.read_parseWords hne hdash verbose _, hfile⟩
  exact r.overflows rfl hindent

/-- A configuration file of the working directory asks for the indentation. -/
theorem run_overflows_of_file (hname : fs.isFile "descent.toml" = true)
    (htext : fs.readText "descent.toml" = .ok (Config.indentationFile indent.toNat))
    (verbose lines : Bool) :
    Id.run (run fs (CommandLine.parseWords verbose file ⟨none, none, lines⟩)) =
      ⟨.overflow, "", ""⟩ := by
  let r : ParseRun file deepestSource := ⟨fs, _, verbose, ⟨none, none, lines⟩,
    CommandLine.read_parseWords hne hdash verbose _, hfile⟩
  have hsettings := r.settings_eq_of_indentationFile hname htext
  have hformat : r.settings.format = .events := by
    rw [hsettings]
    rfl
  have hwide : 2 ^ 54 ≤ r.settings.indent.toNat := by
    rw [hsettings]
    exact hindent
  exact r.overflows hformat hwide

end

end Program

/-! ## Parses -/

/-- **Indentation.** Every transcript of a parse is printed with one line for each event, indented
by the rules that are open: before the event if it commences a rule or accepts a token, and after it
if it finishes a rule. That is the count of the printer, which never goes below zero and never above
1024, and a rule finishes on the level on which it commenced. No width overflows for any parse
exactly if a level has fewer than 2 ^ 54 spaces. The command line and the configuration file take
more than that, and then a run on a source text that nests deep enough overflows. -/
theorem indentation_of_parse :
    (∀ ts : List Token,
      let log := Transcript.ofTokens ts
      let rows := levels 0 log.events
      (∀ layout dump, log.render? layout = some dump → dump = String.join (rows.map fun row =>
        indented (row.1 * layout.indent.toNat) (eventText layout.showLines row.2))) ∧
      rows.map (·.2) = log.events ∧
      ∀ past e rest, log.events = past ++ e :: rest →
        ∃ before after, Placed 1024 past e rest before after) ∧
    (∀ indent : UInt64,
      ((∀ ts, WidthsFit indent (Transcript.ofTokens ts).events) ↔ indent.toNat < 2 ^ 54) ∧
      ((∀ ts showLines, ((Transcript.ofTokens ts).render? ⟨indent, showLines⟩).isSome) ↔
        indent.toNat < 2 ^ 54)) ∧
    ∀ indent : UInt64, 2 ^ 54 ≤ indent.toNat →
      (∀ path, Config.ofText? path (Config.indentationFile indent.toNat) =
        some ⟨path, ⟨.events, indent, false⟩⟩) ∧
      ¬ WidthsFit indent (parseText deepestSource).events ∧
      ∀ file : String, file ≠ "" → file.toList.head? ≠ some '-' →
        (∀ verbose format lines,
          CommandLine.read (CommandLine.parseWords verbose file ⟨format, some indent, lines⟩) =
            .ok ⟨verbose, none, .parse file ⟨format, some indent, lines⟩⟩) ∧
        ∀ fs : FileSystem Id, fs.readText file = .ok deepestSource → ∀ verbose lines,
          Id.run (Program.run fs
            (CommandLine.parseWords verbose file ⟨some .events, some indent, lines⟩)) =
              ⟨.overflow, "", ""⟩ ∧
          (fs.isFile "descent.toml" = true →
            fs.readText "descent.toml" = .ok (Config.indentationFile indent.toNat) →
            Id.run (Program.run fs (CommandLine.parseWords verbose file ⟨none, none, lines⟩)) =
              ⟨.overflow, "", ""⟩) := by
  refine ⟨fun ts => ?_, fun indent => ?_, fun indent hindent => ?_⟩
  · intro log rows
    have hevents : log.events = (parse (TokenQueue.ofList ts)).events := events_ofTokens ts
    obtain ⟨⟨rs, hopen⟩, hnest⟩ := Parser.exists_openRules_parse (TokenQueue.ofList ts)
    rw [← hevents] at hopen hnest
    exact ⟨fun layout dump hdump => (renderEvents?_eq_some hdump).2, map_snd_levels 0 _,
      fun past e rest hsplit => exists_placed hopen hnest hsplit⟩
  · have hnarrow (h : indent.toNat < 2 ^ 54) (ts : List Token) (showLines : Bool) :
        ∃ dump, (ofTokens ts).render? ⟨indent, showLines⟩ = some dump := by
      rw [render?, events_ofTokens]
      exact ⟨_, Parser.renderEvents?_parse _ h⟩
    have hfits : (∀ ts, WidthsFit indent (ofTokens ts).events) → indent.toNat < 2 ^ 54 := by
      intro hfit
      by_contra hwide
      obtain ⟨ts, hts⟩ := exists_not_widthsFit (Nat.le_of_not_lt hwide)
      exact hts (hfit ts)
    refine ⟨⟨hfits, fun h ts => ?_⟩, fun h => hfits fun ts => ?_, fun h ts showLines => ?_⟩
    · obtain ⟨dump, hdump⟩ := hnarrow h ts false
      exact (renderEvents?_eq_some hdump).1
    · obtain ⟨dump, hdump⟩ := Option.isSome_iff_exists.1 (h ts false)
      exact (renderEvents?_eq_some hdump).1
    · exact Option.isSome_iff_exists.2 (hnarrow h ts showLines)
  · refine ⟨fun path => Config.ofText?_indentationFile path indent,
      not_widthsFit_deepestSource hindent, fun file hne hdash => ⟨?_, ?_⟩⟩
    · intro verbose format lines
      exact CommandLine.read_parseWords hne hdash verbose ⟨format, some indent, lines⟩
    · intro fs hfile verbose lines
      refine ⟨Program.run_overflows_of_option hne hdash hfile hindent verbose lines, ?_⟩
      intro hname htext
      exact Program.run_overflows_of_file hne hdash hfile hindent hname htext verbose lines

end StatementLang
