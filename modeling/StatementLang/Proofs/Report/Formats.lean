import Mathlib.Data.UInt
import StatementLang.Report
import StatementLang.Proofs.Lexical.Lexemes
import StatementLang.Proofs.Parser.Growth
import StatementLang.Proofs.Parser.Truncation
import StatementLang.Proofs.Tree.Dumps
/-!
# The two dumps of a parse

A parse is dumped as its events or as its tree. Rules nest at most 1024 deep, so an indentation
below 2 ^ 54 fits every line (`renderEvents?_eq`), and every format has a report with the error of
the parse. The lines of the tree are those of the events that commence a rule or accept a token,
one level further in (`formats_agree`), whether the parse succeeds or fails.
-/
namespace StatementLang

open Event TokenFeed Transcript

/-! ## Levels -/

namespace Transcript

theorem map_snd_levels (depth : Nat) (es : List Event) : (levels depth es).map (·.2) = es := by
  fun_induction levels depth es <;> simp_all

theorem event_mem_of_mem_levels {depth d : Nat} {e : Event} {es : List Event}
    (h : (d, e) ∈ levels depth es) : e ∈ es := by
  rw [← map_snd_levels depth es]
  exact List.mem_map_of_mem h

/-- When some events are told, at least `d` rules are open at some time. -/
def Reaches (outer : List Rule) (es : List Event) (d : Nat) : Prop :=
  ∃ past rules, past <+: es ∧ openRules outer past = some rules ∧ d ≤ rules.length

theorem reaches_of_le {outer : List Rule} {d : Nat} (h : d ≤ outer.length) (es : List Event) :
    Reaches outer es d :=
  ⟨[], outer, List.nil_prefix, by rw [openRules], h⟩

theorem reaches_cons {outer outer' : List Rule} {e : Event} {es : List Event} {d : Nat}
    (he : ∀ past, openRules outer (e :: past) = openRules outer' past) (h : Reaches outer' es d) :
    Reaches outer (e :: es) d := by
  obtain ⟨past, rules, hpast, hrules, hd⟩ := h
  exact ⟨e :: past, rules, (List.prefix_cons_inj e).2 hpast, (he past).trans hrules, hd⟩

/-- An event is no further in than rules are open before it. -/
theorem reaches_of_mem_levels {outer rs : List Rule} {es : List Event}
    (h : openRules outer es = some rs) {d : Nat} {e : Event}
    (hmem : (d, e) ∈ levels outer.length es) : Reaches outer es d := by
  fun_induction openRules outer es with
  | case1 outer => cases hmem
  | case2 outer r es ih =>
    rcases List.mem_cons.1 hmem with hfirst | hmem
    · cases hfirst; exact reaches_of_le (Nat.le_refl _) _
    · exact reaches_cons (fun past => by rw [openRules]) (ih h hmem)
  | case3 r outer t es ih =>
    rcases List.mem_cons.1 hmem with hfirst | hmem
    · cases hfirst; exact reaches_of_le (Nat.le_refl _) _
    · exact reaches_cons (fun past => by rw [openRules]) (ih h hmem)
  | case4 => cases h
  | case5 outer s es ih =>
    rcases List.mem_cons.1 hmem with hfirst | hmem
    · cases hfirst; exact reaches_of_le (Nat.le_succ _) _
    · exact reaches_cons (fun past => by rw [openRules, if_pos rfl]) (ih h hmem)
  | case6 => cases h
  | case7 => cases h

theorem level_le {n : Nat} {rs : List Rule} {es : List Event} (h : openRules [] es = some rs)
    (hn : NestsWithin n es) : ∀ row ∈ levels 0 es, row.1 ≤ n := by
  rintro ⟨d, e⟩ hrow
  obtain ⟨past, rules, hpast, hrules, hd⟩ := reaches_of_mem_levels h hrow
  exact Nat.le_trans hd (hn past rules hpast hrules)

/-! ## Rendering -/

theorem line?_eq_some_iff {layout : Layout} {row : Nat × Event} {l : String} :
    line? layout row = some l ↔ row.1 * layout.indent.toNat < UInt64.size ∧
      indented (row.1 * layout.indent.toNat) (eventText layout.showLines row.2) = l := by
  simp [line?]

/-- Some rows have lines exactly if no width overflows. -/
theorem mapM_line?_eq_some_iff {layout : Layout} {rows : List (Nat × Event)} {out : List String} :
    rows.mapM (line? layout) = some out ↔
      (∀ row ∈ rows, row.1 * layout.indent.toNat < UInt64.size) ∧
        (rows.map fun row =>
          indented (row.1 * layout.indent.toNat) (eventText layout.showLines row.2)) = out := by
  induction rows generalizing out with
  | nil => simp
  | cons row rows ih =>
    simp only [List.mapM_cons, bind, Option.bind_eq_some_iff, line?_eq_some_iff, ih, pure,
      Option.some.injEq, List.forall_mem_cons, List.map_cons]
    constructor
    · rintro ⟨_, ⟨hrow, rfl⟩, _, ⟨hrows, rfl⟩, rfl⟩
      exact ⟨⟨hrow, hrows⟩, rfl⟩
    · rintro ⟨⟨hrow, hrows⟩, rfl⟩
      exact ⟨_, ⟨hrow, rfl⟩, _, ⟨hrows, rfl⟩, rfl⟩

/-- Events that begin like those of a parse: with the statement part, and no other rule in it. -/
def BeginsProgram (es : List Event) : Prop :=
  es = [.commence .statementPart] ∨ ∃ t rest, es = .commence .statementPart :: .terminal t :: rest

theorem fits_of_beginsProgram {es : List Event} (h : BeginsProgram es) {layout : Layout}
    (hindent : layout.indent.toNat < 2 ^ 54) : fits layout (levels 0 es) = true := by
  rcases h with rfl | ⟨t, rest, rfl⟩
  · rfl
  · -- only the line of the statement part stands before the first indented one
    have hflush : flushSize layout.showLines
        (levels 0 (.commence .statementPart :: .terminal t :: rest)) = 17 := by
      simp only [levels, flushSize]
      rfl
    have hsize : UInt64.size / 2 = 2 ^ 63 := by decide
    simp only [fits, Bool.or_eq_true, decide_eq_true_eq, hflush, hsize]
    right
    omega

/-- The width of the indentation counts in 64 bits for every event. -/
def WidthsFit (indent : UInt64) (es : List Event) : Prop :=
  ∀ row ∈ levels 0 es, row.1 * indent.toNat < UInt64.size

/-- What is printed has one line for each event, on its level. -/
theorem renderEvents?_eq_some {layout : Layout} {es : List Event} {dump : String}
    (h : renderEvents? layout es = some dump) :
    WidthsFit layout.indent es ∧ dump = String.join ((levels 0 es).map fun row =>
      indented (row.1 * layout.indent.toNat) (eventText layout.showLines row.2)) := by
  simp only [renderEvents?] at h
  split at h
  · obtain ⟨out, hout, rfl⟩ := Option.map_eq_some_iff.1 h
    obtain ⟨hfit, rfl⟩ := mapM_line?_eq_some_iff.1 hout
    exact ⟨hfit, rfl⟩
  · cases h

/-- No indentation overflows where at most 1024 rules are open. -/
theorem widthsFit_of_nestsWithin {es : List Event} {rs : List Rule}
    (h : openRules [] es = some rs) (hn : NestsWithin 1024 es) {indent : UInt64}
    (hindent : indent.toNat < 2 ^ 54) : WidthsFit indent es := by
  intro row hrow
  have hlevel := level_le h hn row hrow
  calc row.1 * indent.toNat ≤ 1024 * indent.toNat := Nat.mul_le_mul_right _ hlevel
    _ < 1024 * 2 ^ 54 := Nat.mul_lt_mul_of_pos_left hindent (by decide)
    _ = UInt64.size := by decide

theorem renderEvents?_eq {es : List Event} {rs : List Rule} (hbegin : BeginsProgram es)
    (h : openRules [] es = some rs) (hn : NestsWithin 1024 es) {layout : Layout}
    (hindent : layout.indent.toNat < 2 ^ 54) :
    renderEvents? layout es = some (String.join ((levels 0 es).map fun row =>
      indented (row.1 * layout.indent.toNat) (eventText layout.showLines row.2))) := by
  simp only [renderEvents?]
  rw [if_pos (fits_of_beginsProgram hbegin hindent),
    mapM_line?_eq_some_iff.2 ⟨widthsFit_of_nestsWithin h hn hindent, rfl⟩]
  rfl

/-! ## Lines of events -/

/-- The line of an event on its level, two spaces for a level. -/
def eventLine (row : Nat × Event) : String := indented (row.1 * 2) (eventText false row.2)

theorem lineFeed_not_mem_eventText {showLines : Bool} {e : Event}
    (h : ∀ t, e = .terminal t → '\n' ∉ t.display.toList) :
    '\n' ∉ (eventText showLines e).toList := by
  have hname (r : Rule) : '\n' ∉ r.name.toList := by
    have key : ∀ r ∈ Rule.all, '\n' ∉ r.name.toList := by decide
    exact key r (Rule.mem_all r)
  have hnumber (n : Nat) : '\n' ∉ (toString n).toList := Text.not_mem_toString (by decide) n
  cases e with
  | commence r => simp [eventText, hname]
  | finish r => simp [eventText, hname]
  | terminal t =>
    have ht := h t rfl
    cases showLines with
    | false => exact ht
    | true =>
      simp only [eventText, if_true, String.toList_append, List.mem_append, not_or]
      exact ⟨⟨⟨ht, by decide⟩, hnumber _⟩, by decide⟩

theorem isLine_eventLine {row : Nat × Event}
    (h : ∀ t, row.2 = .terminal t → '\n' ∉ t.display.toList) : Text.IsLine (eventLine row) :=
  Text.isLine_indented (lineFeed_not_mem_eventText h) _

end Transcript

open SyntaxTree in
theorem isLine_of_elementLine? {row : Nat × Event} {l : String} (h : elementLine? row = some l) :
    Text.IsLine l := by
  obtain ⟨d, e⟩ := row
  cases e with
  | commence r => cases h; exact isLine_line (d + 1, .node (.rule r))
  | terminal t => cases h; exact isLine_line (d + 1, .token t.kind t.text)
  | finish r => cases h

/-! ## Events of a parse -/

namespace Parser

variable {σ : Type} [TokenFeed σ]

theorem exists_openRules_parse (f : σ) :
    (∃ rs, openRules [] (parse f).events = some rs) ∧ NestsWithin 1024 (parse f).events := by
  obtain ⟨v, s, hsteps, -, hp⟩ := exists_steps_halt f
  refine ⟨exists_openRules f, ?_⟩
  rw [hp]
  exact nestsWithin_of_steps (by decide) hsteps

theorem beginsProgram_parse (f : σ) : BeginsProgram (parse f).events := by
  obtain ⟨v, s, hsteps, -, hp⟩ := exists_steps_halt f
  rw [hp]
  rcases hsteps.cases_head with rfl | ⟨a, hm, hrest⟩
  · exact .inl rfl
  · -- the first move takes the first token of the statement part
    cases hm with
    | take =>
      obtain ⟨rest, hevents⟩ := events_prefix_of_steps hrest
      exact .inr ⟨_, rest, hevents.symm⟩

theorem renderEvents?_parse (f : σ) {layout : Layout} (h : layout.indent.toNat < 2 ^ 54) :
    renderEvents? layout (parse f).events =
      some (String.join ((levels 0 (parse f).events).map fun row =>
        indented (row.1 * layout.indent.toNat) (eventText layout.showLines row.2))) := by
  obtain ⟨⟨rs, hopen⟩, hnest⟩ := exists_openRules_parse f
  exact renderEvents?_eq (beginsProgram_parse f) hopen hnest h

end Parser

theorem Transcript.events_foldl_hear {σ : Type} [TokenFeed σ] (f : σ) :
    ((parse f).notices.foldl hear .empty).events = (parse f).events := by
  rw [← append_eq_foldl_hear]
  exact List.nil_append _

/-- Every token that a parse of a source text accepts is shown on one line. -/
theorem lineFeed_not_mem_display_of_accepted {source : String} {t : Token}
    (h : .terminal t ∈ (parseText source).events) : '\n' ∉ t.display.toList :=
  Lexer.lineFeed_not_mem_display (Parser.mem_of_terminal_mem_events (Lexer.handsOut _) rfl h)

/-! ## Reports -/

theorem exists_report (source : String) {s : OutputSettings} (h : s.indent.toNat < 2 ^ 54) :
    ∃ dump, report? s source = some ⟨dump, (parseText source).error⟩ := by
  have hdump : ∃ dump, dump? s (parseText source).events = some dump := by
    unfold dump?
    cases s.format with
    | events => exact ⟨_, Parser.renderEvents?_parse (Lexer.ofSource source) h⟩
    | tree =>
      obtain ⟨rs, hopen⟩ := Parser.exists_openRules (Lexer.ofSource source)
      obtain ⟨t, ht, -⟩ := exists_tree_of_openRules hopen
      exact ⟨t.dump, by rw [parseText, ht]; rfl⟩
  obtain ⟨dump, hdump⟩ := hdump
  exact ⟨dump, by rw [report?_eq, hdump]; rfl⟩

/-- **The formats agree.** Whatever is asked for, the report on a source text has the same error.
The dump of the events, with two spaces for a level and without line numbers, has a line for each
event on its level. The dump of the tree has the line of the root, and then a line for each event
that commences a rule or accepts a token, in the same order and one level further in; the events
that finish a rule have none. -/
theorem formats_agree (source : String) {a b : OutputSettings} (ha : a.indent.toNat < 2 ^ 54)
    (hb : b.indent.toNat < 2 ^ 54) :
    (∃ reportA reportB, report? a source = some reportA ∧ report? b source = some reportB ∧
      reportA.error = reportB.error) ∧
    ∃ eventDump treeDump error,
      report? ⟨.events, 2, false⟩ source = some ⟨eventDump, error⟩ ∧
      (∀ indent showLines, report? ⟨.tree, indent, showLines⟩ source = some ⟨treeDump, error⟩) ∧
      let rows := levels 0 (parseText source).events
      Text.HasLines eventDump (rows.map eventLine) ∧
        Text.HasLines treeDump ("Root\n" :: rows.filterMap elementLine?) := by
  obtain ⟨dumpA, hA⟩ := exists_report source ha
  obtain ⟨dumpB, hB⟩ := exists_report source hb
  obtain ⟨⟨rs, hopen⟩, hnest⟩ := Parser.exists_openRules_parse (Lexer.ofSource source)
  have hbegin := Parser.beginsProgram_parse (Lexer.ofSource source)
  obtain ⟨t, ht, hlines⟩ := exists_tree_of_openRules hopen
  refine ⟨⟨_, _, hA, hB, (error_of_report? hA).trans (error_of_report? hB).symm⟩,
    String.join ((levels 0 (parseText source).events).map eventLine), t.dump,
    (parseText source).error, ?_, fun _ _ => ?_, ?_, ?_⟩
  · rw [report?_eq, dump?, parseText, renderEvents?_eq hbegin hopen hnest (by decide)]
    rfl
  · rw [report?_eq, dump?, parseText, ht]
    rfl
  · refine Text.hasLines_join fun l hl => ?_
    obtain ⟨⟨d, e⟩, hrow, rfl⟩ := List.mem_map.1 hl
    have he : e ∈ (parseText source).events := event_mem_of_mem_levels hrow
    refine isLine_eventLine fun t hterminal => ?_
    rw [show e = .terminal t from hterminal] at he
    exact lineFeed_not_mem_display_of_accepted he
  · rw [SyntaxTree.dump, hlines]
    refine Text.hasLines_join (List.forall_mem_cons.2 ⟨⟨"Root", rfl, by decide⟩, fun l hl => ?_⟩)
    obtain ⟨row, -, hrow⟩ := List.mem_filterMap.1 hl
    exact isLine_of_elementLine? hrow

/-- A call that breaks off, with the widest indentation that is sure to fit. -/
theorem formats_agree_open_call :
    let source := "begin\n  call p(a"
    let a : OutputSettings := ⟨.events, 3, true⟩
    let b : OutputSettings := ⟨.tree, 2 ^ 54 - 1, false⟩
    (a.indent.toNat < 2 ^ 54 ∧ b.indent.toNat < 2 ^ 54) ∧
    (∃ reportA reportB, report? a source = some reportA ∧ report? b source = some reportB ∧
      reportA.error = reportB.error) ∧
    ∃ eventDump treeDump error,
      report? ⟨.events, 2, false⟩ source = some ⟨eventDump, error⟩ ∧
      (∀ indent showLines, report? ⟨.tree, indent, showLines⟩ source = some ⟨treeDump, error⟩) ∧
      let rows := levels 0 (parseText source).events
      Text.HasLines eventDump (rows.map eventLine) ∧
        Text.HasLines treeDump ("Root\n" :: rows.filterMap elementLine?) := by
  intro source a b
  have ha : a.indent.toNat < 2 ^ 54 := by decide
  have hb : b.indent.toNat < 2 ^ 54 := by decide
  exact ⟨⟨ha, hb⟩, formats_agree source ha hb⟩

end StatementLang
