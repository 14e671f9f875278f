import StatementLang.Proofs.CommandLine.Options
/-!
# Spellings of command lines

A command line sets a few things: its source file, and options with their values (`settings`). Words
spell it if they write each of these once, in any order and any of its forms, with the name of the
command before all that only the command understands (`Spells`). What has been read is known by what
it has (`Given.Has`), in whatever order that came, so all spellings are read as the command line
that they spell (`read_of_spells`).
-/
namespace StatementLang

namespace CommandLine

/-! ## Settings -/

/-- One thing that a command line sets. -/
inductive Setting where
  | file (path : String)
  | verbose
  | config (path : String)
  | format (format : DumpFormat)
  | indent (width : UInt64)
  | lines
  deriving DecidableEq

/-- The option that sets it; the source file is set by none. -/
def Setting.option? : Setting → Option OptionName
  | file _ => none
  | verbose => some .verbose
  | config _ => some .config
  | format _ => some .format
  | indent _ => some .indent
  | lines => some .lines

/-- Understood before and after the name of a command. -/
def Setting.isGlobal : Setting → Bool
  | verbose | config _ => true
  | _ => false

end CommandLine

/-- How the command is called. -/
def Command.name : Command → String
  | parse _ _ => "parse"
  | tokens _ => "tokens"

def Command.file : Command → String
  | parse file _ => file
  | tokens file => file

/-- What the command overrides; listing tokens overrides nothing. -/
def Command.overrides : Command → Overrides
  | parse _ o => o
  | tokens _ => ⟨none, none, false⟩

namespace CommandLine

/-- All that a command line sets. -/
def settings (line : CommandLine) : List Setting :=
  .file line.command.file ::
    ((if line.verbose then [.verbose] else []) ++ (line.config.map .config).toList ++
      (line.command.overrides.format.map .format).toList ++
      (line.command.overrides.indent.map .indent).toList ++
      if line.command.overrides.lines then [.lines] else [])

/-! ## Spellings -/

/-- A text of decimal digits with a value; zeros may stand in front. -/
structure IsDecimal (text : String) (value : Nat) : Prop where
  ne_nil : text.toList ≠ []
  digits : ∀ c ∈ text.toList, c.isDigit
  value : Nat.ofDigitChars 10 text.toList 0 = value

/-- The name of the option that takes a setting's value, and a text of the value. -/
inductive Valued : Setting → String → String → Prop
  | config (path : String) : Valued (.config path) "config" path
  | format (f : DumpFormat) : Valued (.format f) "format" f.name
  | indent {n : UInt64} {text : String} (decimal : IsDecimal text n.toNat) :
      Valued (.indent n) "indent" text

/-- The words that write a setting. -/
inductive Written : Setting → List String → Prop
  | file (path : String) : Written (.file path) [path]
  | verbose : Written .verbose ["--verbose"]
  | letter : Written .verbose ["-v"]
  | lines : Written .lines ["--lines"]
  | apart {s : Setting} {name value : String} (h : Valued s name value) :
      Written s ["--" ++ name, value]
  | attached {s : Setting} {name value : String} (h : Valued s name value) :
      Written s ["--" ++ name ++ "=" ++ value]

/-- The words that write some settings, one after the other. -/
inductive WriteAll : List Setting → List String → Prop
  | nil : WriteAll [] []
  | cons {s : Setting} {ss : List Setting} {words rest : List String} (first : Written s words)
      (others : WriteAll ss rest) : WriteAll (s :: ss) (words ++ rest)

/-- The words write everything that the command line sets, each thing once and in one of its forms:
before the name of the command only what is understood there, the rest after it. -/
inductive Spells (line : CommandLine) : List String → Prop
  | intro {before after : List Setting} {early late : List String}
      (all : (before ++ after).Perm line.settings) (global : ∀ s ∈ before, s.isGlobal = true)
      (writesEarly : WriteAll before early) (writesLate : WriteAll after late) :
      Spells line (early ++ line.command.name :: late)

/-- A path that can stand as a word: not empty, and with no dash in front. -/
structure IsPath (path : String) : Prop where
  ne_empty : path ≠ ""
  no_dash : path.toList.head? ≠ some '-'

theorem mem_settings_iff {line : CommandLine} {s : Setting} :
    s ∈ line.settings ↔
      match s with
      | .file path => path = line.command.file
      | .verbose => line.verbose = true
      | .config path => line.config = some path
      | .format f => line.command.overrides.format = some f
      | .indent n => line.command.overrides.indent = some n
      | .lines => line.command.overrides.lines = true := by
  cases s <;> simp [settings]

/-- No two settings are made by one option. -/
theorem pairwise_settings (line : CommandLine) :
    line.settings.Pairwise fun s t => s.option? ≠ t.option? := by
  obtain ⟨verbose, config, command⟩ := line
  unfold settings
  generalize command.overrides = o
  obtain ⟨format, indent, lines⟩ := o
  cases verbose <;> cases config <;> cases format <;> cases indent <;> cases lines <;>
    simp [Setting.option?]

/-! ## What has been given -/

/-- The setting has been given. -/
def Given.Has (g : Given) : Setting → Prop
  | .file path => g.file = some path
  | .verbose => g.verbose = true
  | .config path => g.config = some path
  | .format f => g.format = some f
  | .indent n => g.indent = some n
  | .lines => g.lines = true

/-- Nothing has been given by the option that makes the setting. -/
def Given.Lacks (g : Given) (s : Setting) : Prop := ∀ t, t.option? = s.option? → ¬ g.Has t

/-- What has been given with one setting more. -/
def Given.add (g : Given) : Setting → Given
  | .file path => { g with file := some path }
  | .verbose => { g with verbose := true }
  | .config path => { g with config := some path }
  | .format f => { g with format := some f }
  | .indent n => { g with indent := some n }
  | .lines => { g with lines := true }

namespace Given

variable {g : Given} {s t : Setting}

theorem not_has_empty (s : Setting) : ¬ empty.Has s := by
  cases s <;> simp [Has, empty]

theorem has_add (h : g.Lacks s) : (g.add s).Has t ↔ t = s ∨ g.Has t := by
  have ht := h t
  cases s <;> cases t <;> simp_all [Has, add, Setting.option?] <;> exact eq_comm

theorem Lacks.add (h : g.Lacks t) (hs : g.Lacks s) (hst : s.option? ≠ t.option?) :
    (g.add s).Lacks t := by
  intro u hu hhas
  rcases (has_add hs).1 hhas with rfl | hhas
  · exact hst hu
  · exact h u hu hhas

theorem Lacks.raise_verbose (h : g.Lacks .verbose) :
    g.raise .verbose = .ok (g.add .verbose) := by
  have hfree : ¬ g.verbose = true := h .verbose rfl
  simp only [raise, hfree]
  rfl

theorem Lacks.raise_lines (h : g.Lacks .lines) : g.raise .lines = .ok (g.add .lines) := by
  have hfree : ¬ g.lines = true := h .lines rfl
  simp only [raise, hfree]
  rfl

theorem Lacks.config_eq_none {path : String} (h : g.Lacks (.config path)) : g.config = none :=
  Option.eq_none_iff_forall_ne_some.2 fun path => h (.config path) rfl

theorem Lacks.format_eq_none {f : DumpFormat} (h : g.Lacks (.format f)) : g.format = none :=
  Option.eq_none_iff_forall_ne_some.2 fun f => h (.format f) rfl

theorem Lacks.indent_eq_none {n : UInt64} (h : g.Lacks (.indent n)) : g.indent = none :=
  Option.eq_none_iff_forall_ne_some.2 fun n => h (.indent n) rfl

theorem Lacks.file_eq_none {path : String} (h : g.Lacks (.file path)) : g.file = none :=
  Option.eq_none_iff_forall_ne_some.2 fun path => h (.file path) rfl

end Given

/-! ## Reading one setting -/

theorem splitEquals_of_not_mem {l : List Char} (h : '=' ∉ l) : splitEquals l = (l, none) := by
  induction l with
  | nil => rfl
  | cons c cs ih =>
    rw [List.mem_cons, not_or] at h
    obtain ⟨hc, hcs⟩ := h
    rw [splitEquals, if_neg (Ne.symm hc), ih hcs]

theorem splitEquals_append {l : List Char} (h : '=' ∉ l) (r : List Char) :
    splitEquals (l ++ '=' :: r) = (l, some r) := by
  induction l with
  | nil => rfl
  | cons c cs ih =>
    rw [List.mem_cons, not_or] at h
    obtain ⟨hc, hcs⟩ := h
    rw [List.cons_append, splitEquals, if_neg (Ne.symm hc), ih hcs]

/-- Two dashes and a text behind them are a long option. -/
theorem Word.ofString_dashes {w : String} {c : Char} {cs : List Char}
    (h : w.toList = '-' :: '-' :: c :: cs) :
    Word.ofString w = .long (String.ofList (splitEquals (c :: cs)).1)
      ((splitEquals (c :: cs)).2.map String.ofList) := by
  unfold Word.ofString
  rw [h]
  rfl

section
variable {o : OptionName} {name : String}

theorem OptionName.exists_toList_eq (h : (o, name) ∈ OptionName.all) :
    ∃ c cs, name.toList = c :: cs ∧ '=' ∉ c :: cs := by
  have key : ∀ e ∈ OptionName.all, e.2.toList ≠ [] ∧ '=' ∉ e.2.toList := by decide
  obtain ⟨hne, hequals⟩ := key _ h
  obtain ⟨c, cs, hname⟩ := List.exists_cons_of_ne_nil hne
  exact ⟨c, cs, hname, hname ▸ hequals⟩

theorem Word.ofString_long (h : (o, name) ∈ OptionName.all) :
    Word.ofString ("--" ++ name) = .long name none := by
  obtain ⟨c, cs, hname, hequals⟩ := OptionName.exists_toList_eq h
  have hword : ("--" ++ name).toList = '-' :: '-' :: c :: cs := by
    rw [String.toList_append, hname]
    rfl
  rw [ofString_dashes hword, splitEquals_of_not_mem hequals, ← hname, String.ofList_toList]
  rfl

theorem Word.ofString_attached (h : (o, name) ∈ OptionName.all) (value : String) :
    Word.ofString ("--" ++ name ++ "=" ++ value) = .long name (some value) := by
  obtain ⟨c, cs, hname, hequals⟩ := OptionName.exists_toList_eq h
  have hword : ("--" ++ name ++ "=" ++ value).toList =
      '-' :: '-' :: c :: (cs ++ '=' :: value.toList) := by
    simp [hname]
  rw [ofString_dashes hword, ← List.cons_append, splitEquals_append hequals, ← hname,
    String.ofList_toList, Option.map_some, String.ofList_toList]

theorem Level.long?_eq {level : Level} (h : (o, name) ∈ OptionName.all)
    (ho : level.understands o = true) : level.long? name = some o := by
  have key : ∀ e ∈ OptionName.all, OptionName.all.find? (·.2 == e.2) = some e := by decide
  rw [Level.long?, key _ h, Option.map_some, Option.filter_some, if_pos ho]

end

/-- Paths that are set can stand as words. -/
def Setting.IsSound (s : Setting) : Prop := ∀ path, s = .file path ∨ s = .config path → IsPath path

section
variable {s : Setting} {name value : String}

theorem Valued.ofString_value (h : Valued s name value) (sound : s.IsSound) :
    Word.ofString value = .plain value := by
  cases h with
  | config => exact Word.ofString_eq_plain (sound value (.inr rfl)).no_dash
  | format f => exact Word.ofString_name f
  | indent decimal =>
    refine Word.ofString_eq_plain fun hhead => ?_
    exact absurd (decimal.digits _ (List.mem_of_head? hhead)) (by decide)

/-- The option of a value fills its slot with the setting. -/
theorem Valued.exists_slot (h : Valued s name value) (sound : s.IsSound) :
    ∃ o slot, s.option? = some o ∧ (o, name) ∈ OptionName.all ∧ o.slot? = some slot ∧
      ∀ g : Given, g.Lacks s → g.fill slot value = .ok (g.add s) := by
  cases h with
  | config =>
    refine ⟨.config, .config, rfl, by decide, rfl, fun g hg => ?_⟩
    have hpath : value ≠ "" := (sound value (.inr rfl)).ne_empty
    simp [Given.fill, hg.config_eq_none, hpath, Given.add]
  | format f =>
    exact ⟨.format, .format, rfl, by decide, rfl, fun g hg => Given.fill_format hg.format_eq_none f⟩
  | @indent n _ decimal =>
    refine ⟨.indent, .indent, rfl, by decide, rfl, fun g hg => ?_⟩
    have hread : Given.indentOfString? value = some n := by
      rw [Given.indentOfString?_of_digits decimal.ne_nil decimal.digits, decimal.value]
      exact (if_pos n.toNat_lt_size).trans (congrArg some UInt64.ofNat_toNat)
    simp only [Given.fill, hg.indent_eq_none, hread]
    rfl

variable {α : Type} {reader : Progress → List String → Except Stop α} {level : Level}
  {words : List String} {g : Given}

/-- An option that the level understands is read from every form it is written in. -/
theorem gives_option (hr : ReadsOptions level reader) (hw : Written s words)
    (hs : s.option?.any level.understands = true) (sound : s.IsSound) (hg : g.Lacks s) :
    Gives reader words g (g.add s) := by
  cases hw with
  | file path => cases hs
  | verbose =>
    have hlong : level.long? "verbose" = some .verbose := Level.long?_eq (by decide) hs
    exact gives_flag hr rfl hlong rfl hg.raise_verbose
  | letter =>
    have hs : level.understands .verbose = true := hs
    have hshort : level.short? 'v' = some .verbose := by
      rw [Level.short?, OptionName.ofLetter?, Option.filter_some, if_pos hs]
    exact gives_letter hr rfl hshort hg.raise_verbose
  | lines =>
    have hlong : level.long? "lines" = some .lines := Level.long?_eq (by decide) hs
    exact gives_flag hr rfl hlong rfl hg.raise_lines
  | apart h =>
    obtain ⟨o, slot, ho, hname, hslot, hfill⟩ := h.exists_slot sound
    have hunderstands : level.understands o = true := by rwa [ho] at hs
    exact gives_value hr (Word.ofString_long hname) (Level.long?_eq hname hunderstands) hslot
      (h.ofString_value sound) (hfill g hg)
  | @attached _ name value h =>
    obtain ⟨o, slot, ho, hname, hslot, hfill⟩ := h.exists_slot sound
    have hunderstands : level.understands o = true := by rwa [ho] at hs
    exact gives_attached hr (Word.ofString_attached hname value)
      (Level.long?_eq hname hunderstands) hslot (hfill g hg)

end

/-! ## Reading all settings -/

/-- If every setting is read from its words, some settings that do not clash are read from theirs,
and what has been given then has these settings and what it had before. -/
theorem exists_gives {α : Type} {reader : Progress → List String → Except Stop α}
    {ss : List Setting} {words : List String} (hw : WriteAll ss words)
    (apart : ss.Pairwise fun s t => s.option? ≠ t.option?)
    (reads : ∀ s ∈ ss, ∀ ws g, Written s ws → g.Lacks s → Gives reader ws g (g.add s))
    {g : Given} (hg : ∀ s ∈ ss, g.Lacks s) :
    ∃ g', Gives reader words g g' ∧ ∀ s, g'.Has s ↔ s ∈ ss ∨ g.Has s := by
  induction hw generalizing g with
  | nil => exact ⟨g, .nil, fun s => by simp⟩
  | @cons s ss ws rest first others ih =>
    obtain ⟨hapart, apart⟩ := List.pairwise_cons.1 apart
    obtain ⟨hs, hss⟩ := List.forall_mem_cons.1 hg
    have hlacks : ∀ t ∈ ss, (g.add s).Lacks t := fun t ht => (hss t ht).add hs (hapart t ht)
    obtain ⟨g', hgives, hhas⟩ :=
      ih apart (fun t ht => reads t (List.mem_cons_of_mem s ht)) hlacks
    refine ⟨g', (reads s List.mem_cons_self ws g first hs).append hgives, fun t => ?_⟩
    rw [hhas, Given.has_add hs, List.mem_cons, or_left_comm, or_assoc]

end CommandLine

/-- The level at which the words of the command are read. -/
def Command.level : Command → CommandLine.Level
  | parse _ _ => .parse
  | tokens _ => .tokens

namespace CommandLine

/-- What may stand before the name of a command is understood there and after it. -/
theorem understands_of_isGlobal {s : Setting} (h : s.isGlobal = true) (level : Level) :
    s.option?.any level.understands = true := by
  cases s with
  | verbose => cases level <;> rfl
  | config path => cases level <;> rfl
  | _ => cases h

/-- A command understands the options by which it is set up. -/
theorem understands_of_mem_settings {line : CommandLine} {s : Setting} (h : s ∈ line.settings)
    (hfile : s.option? ≠ none) : s.option?.any line.command.level.understands = true := by
  obtain ⟨verbose, config, command⟩ := line
  rw [mem_settings_iff] at h
  cases command with
  | parse file o =>
    cases s with
    | file path => exact absurd rfl hfile
    | _ => rfl
  | tokens file =>
    -- what overrides the format is not understood, and not set either
    cases s with
    | file path => exact absurd rfl hfile
    | verbose => rfl
    | config path => rfl
    | _ => cases h

/-- Behind its name a command reads all its settings. -/
theorem gives_setting {line : CommandLine} {s : Setting} {words : List String} {g : Given}
    (hw : Written s words) (h : s ∈ line.settings) (sound : s.IsSound) (hg : g.Lacks s) :
    Gives (readCommandWords line.command.level false) words g (g.add s) := by
  by_cases hfile : s.option? = none
  · cases hw with
    | file path =>
      have hpath : IsPath path := sound path (.inl rfl)
      exact gives_file (Word.ofString_eq_plain hpath.no_dash) hpath.ne_empty hg.file_eq_none
    | apart hvalue => cases hvalue <;> cases hfile
    | attached hvalue => cases hvalue <;> cases hfile
    | _ => cases hfile
  · exact gives_option (readsOptions_command _) hw (understands_of_mem_settings h hfile) sound hg

/-- The name of the command, when the options before it have been given. -/
theorem readWords_name {p : Progress} {g : Given} (hp : p.settle = .ok g) (command : Command)
    (words : List String) :
    readWords false p (command.name :: words) = do
      let (file, after) ← readCommand command.level words
      return assemble command.level file g after := by
  have hpending := Progress.pending_ne_of_settle hp
  cases command with
  | parse file o =>
    have hplain : Word.ofString "parse" = .plain "parse" := rfl
    show readWords false p ("parse" :: words) = _
    simp only [readWords, hplain, hp]
    rfl
  | tokens file =>
    have hplain : Word.ofString "tokens" = .plain "tokens" := rfl
    show readWords false p ("tokens" :: words) = _
    simp only [readWords, hplain, hp]
    rfl

theorem readCommand_of_gives {level : Level} {words : List String} {g : Given} {file : String}
    (h : Gives (readCommandWords level false) words .empty g) (hfile : g.file = some file) :
    readCommand level words = .ok (file, g) := by
  rw [readCommand, h.readCommandWords_eq]
  simp only [bind, Except.bind, hfile]

/-- What has been given before and after the name makes up the command line, if together it has all
that the command line sets, and nothing of it twice. -/
theorem assemble_eq {line : CommandLine} {before after : Given}
    (all : ∀ s, before.Has s ∨ after.Has s ↔ s ∈ line.settings)
    (global : ∀ s, before.Has s → s.isGlobal = true)
    (apart : ∀ s t, before.Has s → after.Has t → s.option? ≠ t.option?) :
    assemble line.command.level line.command.file before after = line := by
  have late {s : Setting} (hs : s.isGlobal = false) : after.Has s ↔ s ∈ line.settings := by
    rw [← all, or_iff_right fun h => absurd (global s h) (Bool.eq_false_iff.1 hs)]
  have hverbose : (before.verbose || after.verbose) = line.verbose := by
    rw [Bool.eq_iff_iff, Bool.or_eq_true]
    exact (all .verbose).trans mem_settings_iff
  have hconfig : (after.config <|> before.config) = line.config := by
    refine Option.ext fun path => ?_
    refine Iff.trans ?_ ((all (.config path)).trans mem_settings_iff)
    cases hafter : after.config with
    | none => simp [Given.Has, hafter]
    | some q =>
      have hnone : before.config ≠ some path :=
        fun h => apart (.config path) (.config q) h hafter rfl
      simp [Given.Has, hafter, hnone]
  have hformat : after.format = line.command.overrides.format :=
    Option.ext fun f => (late (s := .format f) rfl).trans mem_settings_iff
  have hindent : after.indent = line.command.overrides.indent :=
    Option.ext fun n => (late (s := .indent n) rfl).trans mem_settings_iff
  have hlines : after.lines = line.command.overrides.lines :=
    Bool.eq_iff_iff.2 ((late (s := .lines) rfl).trans mem_settings_iff)
  obtain ⟨verbose, config, command⟩ := line
  simp only [assemble, hverbose, hconfig, hformat, hindent, hlines]
  cases command <;> rfl

/-- **Spelling and order do not matter.** Take a command line whose source file, and whose
configuration file if it names one, can stand as words. All words that spell it are read as this
command line: each option in any of its forms, the options and the source file in any order, and
what is understood before the name of the command before or after it. -/
theorem read_of_spells {line : CommandLine} (hfile : IsPath line.command.file)
    (hconfig : ∀ path, line.config = some path → IsPath path) {words : List String}
    (h : Spells line words) : read words = .ok line := by
  obtain @⟨before, after, early, late, all, global, writesEarly, writesLate⟩ := h
  have hmem : ∀ s, s ∈ before ∨ s ∈ after ↔ s ∈ line.settings := fun s =>
    List.mem_append.symm.trans all.mem_iff
  have sound : ∀ s ∈ line.settings, s.IsSound := by
    rintro s hs path (rfl | rfl)
    · rw [mem_settings_iff.1 hs]
      exact hfile
    · exact hconfig path (mem_settings_iff.1 hs)
  obtain ⟨apartBefore, apartAfter, apart⟩ := List.pairwise_append.1
    ((all.pairwise_iff Ne.symm).2 (pairwise_settings line))
  have lacks (ss : List Setting) : ∀ s ∈ ss, Given.empty.Lacks s :=
    fun s _ t _ => Given.not_has_empty t
  -- the words before the name of the command
  obtain ⟨gb, hgb, hasb⟩ := exists_gives writesEarly apartBefore
    (fun s hs ws g hw hg => gives_option readsOptions_line hw
      (understands_of_isGlobal (global s hs) .top) (sound s ((hmem s).1 (.inl hs))) hg)
    (lacks before)
  -- the words after it
  obtain ⟨ga, hga, hasa⟩ := exists_gives writesLate apartAfter
    (fun s hs ws g hw hg => gives_setting hw ((hmem s).1 (.inr hs))
      (sound s ((hmem s).1 (.inr hs))) hg)
    (lacks after)
  have hbefore (s : Setting) : gb.Has s ↔ s ∈ before :=
    (hasb s).trans (or_iff_left (Given.not_has_empty s))
  have hafter (s : Setting) : ga.Has s ↔ s ∈ after :=
    (hasa s).trans (or_iff_left (Given.not_has_empty s))
  have hline : assemble line.command.level line.command.file gb ga = line := by
    refine assemble_eq (fun s => ?_) (fun s hs => global s ((hbefore s).1 hs)) fun s t hs ht => ?_
    · rw [hbefore, hafter, hmem]
    · exact apart s ((hbefore s).1 hs) t ((hafter t).1 ht)
  have hfileGiven : ga.file = some line.command.file := by
    refine (hafter (.file line.command.file)).2 ?_
    have hset : .file line.command.file ∈ line.settings := mem_settings_iff.2 rfl
    exact ((hmem _).2 hset).resolve_left fun h => absurd (global _ h) nofun
  obtain ⟨p, hp, hread⟩ := hgb .start rfl
  rw [read, hread, readWords_name hp, readCommand_of_gives hga hfileGiven]
  simp only [bind, Except.bind, pure, Except.pure, hline]

/-- Values that look like commands, and the widest indentation with zeros in front. -/
theorem read_of_spells_lookalikes :
    let line : CommandLine :=
      ⟨true, some "parse", .parse "help" ⟨some .tree, some 18446744073709551615, true⟩⟩
    let words := ["--config", "parse", "parse", "--indent=0018446744073709551615", "-v", "help",
      "--lines", "--format", "tree"]
    (IsPath line.command.file ∧ ∀ path, line.config = some path → IsPath path) ∧
      Spells line words ∧ read words = .ok line := by
  intro line words
  have hfile : IsPath line.command.file := ⟨by decide, by decide⟩
  have hconfig : ∀ path, line.config = some path → IsPath path := by
    rintro path hpath
    cases hpath
    exact ⟨by decide, by decide⟩
  have hwidth : IsDecimal "0018446744073709551615" (18446744073709551615 : UInt64).toNat :=
    ⟨by decide, List.all_eq_true.1 rfl, rfl⟩
  have hearly : WriteAll [.config "parse"] ["--config", "parse"] :=
    .cons (.apart (.config "parse")) .nil
  have hlate : WriteAll
      [.indent 18446744073709551615, .verbose, .file "help", .lines, .format .tree]
      ["--indent=0018446744073709551615", "-v", "help", "--lines", "--format", "tree"] :=
    .cons (.attached (.indent hwidth)) (.cons .letter (.cons (.file "help") (.cons .lines
      (.cons (.apart (.format .tree)) .nil))))
  have hspells : Spells line words := .intro (by decide) (by decide) hearly hlate
  exact ⟨⟨hfile, hconfig⟩, hspells, read_of_spells hfile hconfig hspells⟩

end CommandLine
end StatementLang
