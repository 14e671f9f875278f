import StatementLang.Program
import StatementLang.Proofs.CommandLine.Options
import StatementLang.Proofs.Report.Formats
/-!
# The verdict on a source file

The command `parse` says of a source file whether it is accepted: by the number of its status, and
by the message of the error. How its output looks is another matter, which the options of the
command line and the configuration files of the working directory decide. Two runs on the same text
come to the same verdict, whatever these say (`verdict_ignores_settings`).
-/
namespace StatementLang

/-- A file with the bytes of a text is read as that text. -/
theorem Directory.readText_of_resolve {d : Directory} {path s : String}
    (h : d.resolve path = .ok (.file s.toUTF8)) : d.readText path = .ok s := by
  have hs : String.fromUTF8? s.toUTF8 = some s := dif_pos s.isValidUTF8
  unfold readText
  rw [h]
  simp only [bind, Except.bind, hs]

namespace Program

/-- What a run says of a source text: the verdict, and the dump that some settings ask for. -/
structure Tells (source : String) (settings : OutputSettings) (outcome : Outcome) : Prop where
  accepted : (parseText source).error = none → outcome.status.code = 0 ∧ outcome.errors = ""
  rejected : ∀ e, (parseText source).error = some e →
    outcome.status.code = 1 ∧ outcome.errors = e.message ++ "\n"
  output : dump? settings (parseText source).events = some outcome.output

/-- The verdict is that of the source text alone. -/
theorem Tells.agree {source : String} {s s' : OutputSettings} {a b : Outcome}
    (ha : Tells source s a) (hb : Tells source s' b) :
    a.status.code = b.status.code ∧ a.errors = b.errors := by
  cases herror : (parseText source).error with
  | none =>
    obtain ⟨hcode, herrors⟩ := ha.accepted herror
    obtain ⟨hcode', herrors'⟩ := hb.accepted herror
    exact ⟨hcode.trans hcode'.symm, herrors.trans herrors'.symm⟩
  | some e =>
    obtain ⟨hcode, herrors⟩ := ha.rejected e herror
    obtain ⟨hcode', herrors'⟩ := hb.rejected e herror
    exact ⟨hcode.trans hcode'.symm, herrors.trans herrors'.symm⟩

theorem dump?_of_report? {source : String} {s : OutputSettings} {r : Report}
    (h : report? s source = some r) : dump? s (parseText source).events = some r.dump := by
  rw [report?_eq] at h
  obtain ⟨dump, hdump, rfl⟩ := Option.map_eq_some_iff.1 h
  exact hdump

/-- With an indentation below 2 ^ 54 there is always an outcome that tells all of this. -/
theorem tells_parsed (source : String) {s : OutputSettings} (h : s.indent.toNat < 2 ^ 54) :
    Tells source s (parsed s source) := by
  obtain ⟨dump, hreport⟩ := exists_report source h
  have hdump := dump?_of_report? hreport
  cases herror : (parseText source).error with
  | none =>
    have hparsed : parsed s source = ⟨.success, dump, ""⟩ := by rw [parsed, hreport, herror]
    rw [hparsed]
    exact ⟨fun _ => ⟨rfl, rfl⟩, fun e he => absurd (herror.symm.trans he) nofun, hdump⟩
  | some e =>
    have hparsed : parsed s source = ⟨.failure, dump, e.message ++ "\n"⟩ := by
      rw [parsed, hreport, herror]
    rw [hparsed]
    refine ⟨fun hnone => absurd (herror.symm.trans hnone) nofun, fun e' he => ?_, hdump⟩
    cases herror.symm.trans he
    exact ⟨rfl, rfl⟩

/-- A run of the command `parse` on a file that holds a source text. The command line names no
configuration file. -/
structure ParseRun (file source : String) where
  files : FileSystem Id
  words : List String
  verbose : Bool
  overrides : Overrides
  asks : CommandLine.read words = .ok ⟨verbose, none, .parse file overrides⟩
  holds : files.readText file = .ok source

namespace ParseRun

variable {file source : String}

/-- The settings in effect: the command line over the configuration file, if one is found. -/
def settings (r : ParseRun file source) : OutputSettings :=
  (Id.run (Config.discover r.files)).output.override r.overrides

def outcome (r : ParseRun file source) : Outcome := Id.run (run r.files r.words)

/-- The configuration file that is found first is in effect, malformed or not. -/
theorem settings_eq (r : ParseRun file source) {name text : String}
    (hname : Config.firstFile? r.files Config.fileNames = some name)
    (htext : r.files.readText name = .ok text) :
    r.settings = (Config.ofText (some name) text).output.override r.overrides := by
  simp only [settings, Config.discover, hname, htext, Id.run, bind, pure]

/-- No configuration file keeps a run from its source file. -/
theorem outcome_eq (r : ParseRun file source) : r.outcome = parsed r.settings source := by
  simp only [outcome, run, r.asks, configure, perform, withSource, r.holds, bind, pure]
  rfl

end ParseRun

/-- **The verdict ignores the settings.** Take a file whose name is not empty and starts with no
dash. The command line `parse` with this file can ask for every choice of options. Any two runs that
it asks for, with any files around the source file and with indentations below 2 ^ 54, end with the
same status and the same message: status 0 and no message if the source text is accepted, and else
status 1 and the message of the error. Each prints the dump that its own settings ask for. -/
theorem verdict_ignores_settings {file : String} (hne : file ≠ "")
    (hdash : file.toList.head? ≠ some '-') (source : String) :
    (∀ verbose overrides, CommandLine.read (CommandLine.parseWords verbose file overrides) =
      .ok ⟨verbose, none, .parse file overrides⟩) ∧
    ∀ a b : ParseRun file source,
      a.settings.indent.toNat < 2 ^ 54 → b.settings.indent.toNat < 2 ^ 54 →
      a.outcome.status.code = b.outcome.status.code ∧ a.outcome.errors = b.outcome.errors ∧
        Tells source a.settings a.outcome ∧ Tells source b.settings b.outcome := by
  refine ⟨CommandLine.read_parseWords hne hdash, fun a b ha hb => ?_⟩
  have htells : Tells source a.settings a.outcome := a.outcome_eq ▸ tells_parsed source ha
  have htells' : Tells source b.settings b.outcome := b.outcome_eq ▸ tells_parsed source hb
  obtain ⟨hcode, herrors⟩ := htells.agree htells'
  exact ⟨hcode, herrors, htells, htells'⟩

/-- A text with an error. Beside it stands a malformed configuration file in one directory, and a
directory under that name and a hidden file with settings in the other. -/
theorem verdict_ignores_settings_open_call :
    let source := "begin call p(a"
    let d : Directory := ⟨[(["prog.txt"], .file source.toUTF8),
      (["descent.toml"], .file "[output\n".toUTF8)]⟩
    let d' : Directory := ⟨[(["prog.txt"], .file source.toUTF8), (["descent.toml"], .directory),
      ([".descent.toml"], .file "[output]\nformat = \"tree\"\nindent = 8\n".toUTF8)]⟩
    ("prog.txt" ≠ "" ∧ "prog.txt".toList.head? ≠ some '-') ∧
    ∃ a b : ParseRun "prog.txt" source,
      (a.files = d.fileSystem ∧ a.words = ["parse", "-v", "prog.txt", "--indent=3"] ∧
        a.settings = ⟨.events, 3, false⟩) ∧
      (b.files = d'.fileSystem ∧ b.words = ["parse", "--lines", "prog.txt"] ∧
        b.settings = ⟨.tree, 8, true⟩) ∧
      (a.settings.indent.toNat < 2 ^ 54 ∧ b.settings.indent.toNat < 2 ^ 54) ∧
      a.outcome.status.code = b.outcome.status.code ∧ a.outcome.errors = b.outcome.errors ∧
        Tells source a.settings a.outcome ∧ Tells source b.settings b.outcome := by
  intro source d d'
  have hne : "prog.txt" ≠ "" := by decide
  have hdash : "prog.txt".toList.head? ≠ some '-' := by decide
  let a : ParseRun "prog.txt" source := ⟨d.fileSystem, ["parse", "-v", "prog.txt", "--indent=3"],
    true, ⟨none, some 3, false⟩, by rfl, Directory.readText_of_resolve rfl⟩
  let b : ParseRun "prog.txt" source := ⟨d'.fileSystem, ["parse", "--lines", "prog.txt"], false,
    ⟨none, none, true⟩, by rfl, Directory.readText_of_resolve rfl⟩
  have hsettings : a.settings = ⟨.events, 3, false⟩ := by
    have htext : d.readText "descent.toml" = .ok "[output\n" := Directory.readText_of_resolve rfl
    rw [a.settings_eq rfl htext]
    show (Config.ofText (some "descent.toml") "[output\n").output.override ⟨none, some 3, false⟩ = _
    decide +kernel
  have hsettings' : b.settings = ⟨.tree, 8, true⟩ := by
    have htext : d'.readText ".descent.toml" = .ok "[output]\nformat = \"tree\"\nindent = 8\n" :=
      Directory.readText_of_resolve rfl
    rw [b.settings_eq rfl htext]
    show (Config.ofText (some ".descent.toml")
      "[output]\nformat = \"tree\"\nindent = 8\n").output.override ⟨none, none, true⟩ = _
    decide +kernel
  have ha : a.settings.indent.toNat < 2 ^ 54 := by rw [hsettings]; decide
  have hb : b.settings.indent.toNat < 2 ^ 54 := by rw [hsettings']; decide
  exact ⟨⟨hne, hdash⟩, a, b, ⟨rfl, rfl, hsettings⟩, ⟨rfl, rfl, hsettings'⟩, ⟨ha, hb⟩,
    (verdict_ignores_settings hne hdash source).2 a b ha hb⟩

end Program
end StatementLang
