import StatementLang.Settings
import StatementLang.Tree.Builder
import StatementLang.Tree.Dump
/-!
# Reports

The printable result of parsing a source text: the dump in the chosen format, as far as the parse
came, and the error that ended it. Each format has its own parse with its own listener
(`parse_source`); the error does not depend on the format (`error_of_report?`).
-/
namespace StatementLang

/-- What is printed about a source text (`ParseReport`). -/
structure Report where
  dump : String
  error : Option SyntaxError
  deriving DecidableEq, Repr

/-- The parse of a source text. -/
def parseText (source : String) : Parse Lexer := parse (Lexer.ofSource source)

/-- The dump of a list of events, unless an indentation overflows. -/
def dump? (settings : OutputSettings) (es : List Event) : Option String :=
  match settings.format with
  | .events => Transcript.renderEvents? settings.layout es
  | .tree => (SyntaxTree.ofEvents? es).map SyntaxTree.dump

/-! ## One parse for each format -/

/-- A tree builder that hears a parse out answers with its error. -/
theorem TreeBuilder.tell?_eq {σ : Type} (b : TreeBuilder) (p : Parse σ) :
    p.tell? b = (p.events.foldlM step? b).map (p.error, ·) := by
  obtain ⟨es, v, t, src⟩ := p
  cases v <;> rfl

/-- The report with the events, from a parse that a transcript hears (`parse_tokens`, `render`). -/
def eventReport? (layout : Layout) (source : String) : Option Report :=
  ((parseText source).tell? Transcript.empty).bind fun r =>
    (r.2.render? layout).map (⟨·, r.1⟩)

/-- The report with the tree, from a parse that a builder hears (`parse`, `debug_tree`). -/
def treeReport? (source : String) : Option Report :=
  ((parseText source).tell? TreeBuilder.empty).map fun r => ⟨r.2.build.dump, r.1⟩

/-- The report on a source text, unless an indentation overflows (`parse_source`). -/
def report? (settings : OutputSettings) (source : String) : Option Report :=
  match settings.format with
  | .events => eventReport? settings.layout source
  | .tree => treeReport? source

theorem error_of_eventReport? {layout : Layout} {source : String} {r : Report}
    (h : eventReport? layout source = some r) : r.error = (parseText source).error := by
  obtain ⟨⟨e, s⟩, htell, hrender⟩ := Option.bind_eq_some_iff.1 h
  obtain ⟨dump, -, rfl⟩ := Option.map_eq_some_iff.1 hrender
  exact Parse.error_of_tell? (fun _ _ _ => rfl) htell

theorem error_of_treeReport? {source : String} {r : Report} (h : treeReport? source = some r) :
    r.error = (parseText source).error := by
  obtain ⟨⟨e, b⟩, htell, rfl⟩ := Option.map_eq_some_iff.1 h
  exact Parse.error_of_tell? (fun _ _ _ => rfl) htell

/-- Both ways to a report lead to the same error, that of the parse. -/
theorem error_of_report? {settings : OutputSettings} {source : String} {r : Report}
    (h : report? settings source = some r) : r.error = (parseText source).error := by
  unfold report? at h
  split at h
  · exact error_of_eventReport? h
  · exact error_of_treeReport? h

/-- A report has the dump of the events of the parse, and its error. -/
theorem report?_eq (settings : OutputSettings) (source : String) :
    report? settings source =
      (dump? settings (parseText source).events).map (⟨·, (parseText source).error⟩) := by
  unfold report? dump?
  split
  · rw [eventReport?, Transcript.tell?_eq]
    rfl
  · rw [treeReport?, TreeBuilder.tell?_eq, SyntaxTree.ofEvents?]
    simp only [Option.map_map, Function.comp_def]

end StatementLang
