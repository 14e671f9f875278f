import StatementLang.CommandLine
import StatementLang.Proofs.Text.Numbers
/-!
# Reading the options of a command

The words of a command are read in groups: an option that takes no value, an option and its value,
or a source file. A group changes what has been given and nothing else (`Gives`), so the groups of a
command are read one after the other, and every choice of options for the command `parse` is read
back from the words that spell it (`read_parseWords`).
-/
namespace StatementLang

namespace CommandLine

/-! ## Values -/

/-- A text of digits is read as the number they make, if 64 bits hold it. -/
theorem Given.indentOfString?_of_digits {s : String} (hne : s.toList ≠ [])
    (h : ∀ c ∈ s.toList, c.isDigit) :
    indentOfString? s =
      let n := Nat.ofDigitChars 10 s.toList 0
      if n < UInt64.size then some (UInt64.ofNat n) else none := by
  have hdigits : (s.toList.isEmpty || !s.toList.all Char.isDigit) = false := by
    simpa [hne] using h
  unfold indentOfString?
  split
  · next cs hs => exact absurd (h '+' (by rw [hs]; exact List.mem_cons_self)) (by decide)
  · simp only [hdigits]
    rfl

theorem Given.indentOfString?_toString (n : UInt64) :
    indentOfString? (toString n.toNat) = some n := by
  have hlist : (toString n.toNat).toList = Nat.toDigits 10 n.toNat := Nat.toList_repr
  rw [indentOfString?_of_digits (by rw [hlist]; exact Nat.toDigits_ne_nil)
    fun c => Text.isDigit_of_mem_toString, Text.ofDigitChars_toString]
  exact (if_pos n.toNat_lt_size).trans (congrArg some UInt64.ofNat_toNat)

theorem Given.fill_format {g : Given} (h : g.format = none) (f : DumpFormat) :
    g.fill .format f.name = .ok { g with format := some f } := by
  simp only [fill, h, DumpFormat.ofName?_name]
  rfl

theorem Given.fill_indent {g : Given} (h : g.indent = none) (n : UInt64) :
    g.fill .indent (toString n.toNat) = .ok { g with indent := some n } := by
  simp only [fill, h, indentOfString?_toString]
  rfl

/-! ## Words -/

theorem Word.ofString_eq_plain {w : String} (h : w.toList.head? ≠ some '-') :
    Word.ofString w = .plain w := by
  unfold Word.ofString
  split <;> simp_all

theorem Word.ofString_toString (n : Nat) : Word.ofString (toString n) = .plain (toString n) :=
  ofString_eq_plain fun h =>
    absurd (Text.isDigit_of_mem_toString (List.mem_of_head? h)) (by decide)

theorem Word.ofString_name (f : DumpFormat) : Word.ofString f.name = .plain f.name := by
  cases f <;> rfl

/-! ## Groups of words -/

theorem Given.file_of_fill {g g' : Given} {slot : Slot} {value : String}
    (h : g.fill slot value = .ok g') :
    g'.file = if slot = .file then some value else g.file := by
  unfold fill at h
  split at h <;> (repeat' split at h) <;> cases h <;> rfl

/-- The place of the source file is taken when a file has been given. -/
theorem Progress.hasFile_of_settle {p : Progress} {g : Given} (h : p.settle = .ok g) :
    p.hasFile = g.file.isSome := by
  obtain ⟨given, pending⟩ := p
  cases pending with
  | none =>
    cases h
    simp [hasFile]
  | some named =>
    obtain ⟨slot, _ | value⟩ := named
    · cases h
    · rw [Given.file_of_fill h]
      cases slot <;> simp [hasFile]

/-- A reader of words that understands the options of a level, whatever else it reads. -/
structure ReadsOptions {α : Type} (level : Level)
    (reader : Progress → List String → Except Stop α) : Prop where
  long {w name : String} {value : Option String} (hw : Word.ofString w = .long name value)
    (p : Progress) (rest : List String) :
    reader p (w :: rest) = p.long level name value >>= fun p' => reader p' rest
  shorts {w : String} {cs : List Char} (hw : Word.ofString w = .shorts cs) (p : Progress)
    (rest : List String) :
    reader p (w :: rest) = Progress.shorts level p cs >>= fun p' => reader p' rest
  value {w : String} (hw : Word.ofString w = .plain w) (g : Given) (slot : Slot)
    (rest : List String) :
    reader ⟨g, some (slot, none)⟩ (w :: rest) = reader ⟨g, some (slot, some w)⟩ rest

/-- After the name of a command. -/
theorem readsOptions_command (level : Level) :
    ReadsOptions level (readCommandWords level false) where
  long hw p rest := by simp only [readCommandWords, hw]
  shorts hw p rest := by simp only [readCommandWords, hw]
  value hw g slot rest := by simp only [readCommandWords, hw]

/-- Before the name of the command. -/
theorem readsOptions_line : ReadsOptions .top (readWords false) where
  long hw p rest := by simp only [readWords, hw]
  shorts hw p rest := by simp only [readWords, hw]
  value hw g slot rest := by simp only [readWords, hw]

/-- Some words turn what has been given from `g` into `g'`, whatever words come after them. -/
def Gives {α : Type} (reader : Progress → List String → Except Stop α) (words : List String)
    (g g' : Given) : Prop :=
  ∀ p : Progress, p.settle = .ok g → ∃ p' : Progress, p'.settle = .ok g' ∧
    ∀ rest, reader p (words ++ rest) = reader p' rest

section
variable {α : Type} {reader : Progress → List String → Except Stop α} {level : Level}
  {words words' : List String} {g g' g'' : Given}

theorem Gives.nil : Gives reader [] g g := fun p hp => ⟨p, hp, fun _ => rfl⟩

theorem Gives.append (h : Gives reader words g g') (h' : Gives reader words' g' g'') :
    Gives reader (words ++ words') g g'' := by
  intro p hp
  obtain ⟨p', hp', hread⟩ := h p hp
  obtain ⟨p'', hp'', hread'⟩ := h' p' hp'
  refine ⟨p'', hp'', fun rest => ?_⟩
  rw [List.append_assoc, hread, hread']

/-- What a whole command gives. -/
theorem Gives.readCommandWords_eq (h : Gives (readCommandWords level false) words .empty g) :
    readCommandWords level false .start words = .ok g := by
  obtain ⟨p, hp, hread⟩ := h .start rfl
  rw [← List.append_nil words, hread]
  exact hp

/-- An option that takes no value. -/
theorem gives_flag (hr : ReadsOptions level reader) {w name : String} {o : OptionName}
    (hw : Word.ofString w = .long name none) (ho : level.long? name = some o)
    (hslot : o.slot? = none) (hraise : g.raise o = .ok g') : Gives reader [w] g g' := by
  intro p hp
  refine ⟨⟨g', none⟩, rfl, fun rest => ?_⟩
  have hstep : p.long level name none = .ok ⟨g', none⟩ := by
    simp only [Progress.long, ho, hslot, hp, bind, Except.bind, hraise]
    rfl
  rw [List.singleton_append, hr.long hw, hstep]
  rfl

/-- An option that takes no value, by its letter. -/
theorem gives_letter (hr : ReadsOptions level reader) {w : String} {c : Char} {o : OptionName}
    (hw : Word.ofString w = .shorts [c]) (ho : level.short? c = some o)
    (hraise : g.raise o = .ok g') : Gives reader [w] g g' := by
  intro p hp
  refine ⟨⟨g', none⟩, rfl, fun rest => ?_⟩
  have hstep : Progress.shorts level p [c] = .ok ⟨g', none⟩ := by
    simp only [Progress.shorts, ho, hp, bind, Except.bind, hraise]
  rw [List.singleton_append, hr.shorts hw, hstep]
  rfl

/-- An option and its value in the next word. -/
theorem gives_value (hr : ReadsOptions level reader) {w name value : String} {o : OptionName}
    {slot : Slot} (hw : Word.ofString w = .long name none) (ho : level.long? name = some o)
    (hslot : o.slot? = some slot) (hvalue : Word.ofString value = .plain value)
    (hfill : g.fill slot value = .ok g') : Gives reader [w, value] g g' := by
  intro p hp
  refine ⟨⟨g, some (slot, some value)⟩, hfill, fun rest => ?_⟩
  have hstep : p.long level name none = .ok ⟨g, some (slot, none)⟩ := by
    simp only [Progress.long, ho, hslot, hp]
    rfl
  rw [List.cons_append, List.singleton_append, hr.long hw, hstep]
  exact hr.value hvalue g slot rest

/-- An option with its value attached. -/
theorem gives_attached (hr : ReadsOptions level reader) {w name value : String} {o : OptionName}
    {slot : Slot} (hw : Word.ofString w = .long name (some value))
    (ho : level.long? name = some o) (hslot : o.slot? = some slot)
    (hfill : g.fill slot value = .ok g') : Gives reader [w] g g' := by
  intro p hp
  refine ⟨⟨g', none⟩, rfl, fun rest => ?_⟩
  have hstep : p.long level name (some value) = .ok ⟨g', none⟩ := by
    simp only [Progress.long, ho, hslot, hp, bind, Except.bind, hfill]
    rfl
  rw [List.singleton_append, hr.long hw, hstep]
  rfl

/-- An option that waits for its value has nothing to settle. -/
theorem Progress.pending_ne_of_settle {p : Progress} (hp : p.settle = .ok g) (slot : Slot) :
    p.pending ≠ some (slot, none) := by
  intro h
  simp [settle, h] at hp

/-- A source file, where none has been given. -/
theorem gives_file {file : String} (hfile : Word.ofString file = .plain file) (hne : file ≠ "")
    (hnone : g.file = none) :
    Gives (readCommandWords level false) [file] g { g with file := some file } := by
  intro p hp
  have hfill : g.fill .file file = .ok { g with file := some file } := by
    simp [Given.fill, hne]
  refine ⟨⟨g, some (.file, some file)⟩, hfill, fun rest => ?_⟩
  have hstep : p.file file = .ok ⟨g, some (.file, some file)⟩ := by
    have hfree : p.hasFile = false := by rw [Progress.hasFile_of_settle hp, hnone]; rfl
    simp only [Progress.file, hfree, hp]
    rfl
  have hpending := Progress.pending_ne_of_settle hp
  simp only [List.singleton_append, readCommandWords, hfile]
  rw [hstep]
  rfl

end

/-! ## The command `parse` -/

/-- The words that spell some overrides. -/
def optionWords (o : Overrides) : List String :=
  o.format.elim [] (fun f => ["--format", f.name]) ++
    (o.indent.elim [] (fun n => ["--indent", toString n.toNat]) ++
      if o.lines then ["--lines"] else [])

/-- The words of the command `parse` for a file with some overrides. -/
def parseWords (verbose : Bool) (file : String) (o : Overrides) : List String :=
  (if verbose then ["--verbose"] else []) ++ "parse" :: file :: optionWords o

theorem gives_optionWords (file : String) (o : Overrides) :
    Gives (readCommandWords .parse false) (optionWords o) { Given.empty with file := some file }
      ⟨false, o.lines, none, o.format, o.indent, some file⟩ := by
  have hread := readsOptions_command .parse
  have hformat : Gives (readCommandWords .parse false)
      (o.format.elim [] fun f => ["--format", f.name])
      { Given.empty with file := some file } ⟨false, false, none, o.format, none, some file⟩ := by
    cases o.format with
    | none => exact .nil
    | some f =>
      exact gives_value (o := .format) hread rfl rfl rfl (Word.ofString_name f)
        (Given.fill_format rfl f)
  have hindent : Gives (readCommandWords .parse false)
      (o.indent.elim [] fun n => ["--indent", toString n.toNat])
      ⟨false, false, none, o.format, none, some file⟩
      ⟨false, false, none, o.format, o.indent, some file⟩ := by
    cases o.indent with
    | none => exact .nil
    | some n =>
      exact gives_value (o := .indent) hread rfl rfl rfl (Word.ofString_toString _)
        (Given.fill_indent rfl n)
  have hlines : Gives (readCommandWords .parse false) (if o.lines then ["--lines"] else [])
      ⟨false, false, none, o.format, o.indent, some file⟩
      ⟨false, o.lines, none, o.format, o.indent, some file⟩ := by
    cases o.lines with
    | false => exact .nil
    | true => exact gives_flag (o := .lines) hread rfl rfl rfl rfl
  exact hformat.append (hindent.append hlines)

theorem readCommand_parse {file : String} (hne : file ≠ "") (hdash : file.toList.head? ≠ some '-')
    (o : Overrides) : readCommand .parse (file :: optionWords o) =
      .ok (file, ⟨false, o.lines, none, o.format, o.indent, some file⟩) := by
  have hfile : Gives (readCommandWords .parse false) [file] .empty
      { Given.empty with file := some file } :=
    gives_file (Word.ofString_eq_plain hdash) hne rfl
  have hwords := (hfile.append (gives_optionWords file o)).readCommandWords_eq
  rw [List.singleton_append] at hwords
  rw [readCommand, hwords]
  rfl

/-- The name of the command, when nothing before it is left to settle. -/
theorem readWords_parse (g : Given) (words : List String) :
    readWords false ⟨g, none⟩ ("parse" :: words) = do
      let (file, after) ← readCommand .parse words
      return assemble .parse file g after := rfl

/-- Every choice of options for the command `parse` is read back from its words. -/
theorem read_parseWords {file : String} (hne : file ≠ "") (hdash : file.toList.head? ≠ some '-')
    (verbose : Bool) (o : Overrides) :
    read (parseWords verbose file o) = .ok ⟨verbose, none, .parse file o⟩ := by
  have hverbose : read (parseWords verbose file o) = readWords false
      ⟨{ Given.empty with verbose := verbose }, none⟩ ("parse" :: file :: optionWords o) := by
    cases verbose <;> rfl
  rw [hverbose, readWords_parse, readCommand_parse hne hdash]
  simp [assemble, bind, Except.bind, Given.empty, pure, Except.pure]

end CommandLine
end StatementLang
