import StatementLang.Proofs.Lexical.Display
import StatementLang.Proofs.Parser.Unplaced
import StatementLang.Proofs.Report.Formats
/-!
# Reading event dumps

Each line of an event dump tells its event, up to the line number of a terminal where those are not
shown (`eventText_inj`): a terminal cannot look like a rule, and what is put behind it can be taken
off again, whatever its lexeme looks like. The indentation does not matter, for no line says
something that begins with a space. So from the dump of a parse of a source text the events can be
read off (`event_dump_tells_events`).
-/
namespace StatementLang

open Event

/-- Every terminal has a lexeme just where its kind keeps one. -/
def Event.WellFormed (e : Event) : Prop := ∀ t, e = .terminal t → t.WellFormed

namespace Transcript

/-! ## The text of an event -/

theorem exists_eventText_eq_cons (showLines : Bool) (e : Event) :
    ∃ c s, (eventText showLines e).toList = c :: s ∧ c ≠ ' ' := by
  cases e with
  | commence r => exact ⟨'>', ' ' :: r.name.toList, by simp [eventText], by decide⟩
  | finish r => exact ⟨'<', ' ' :: r.name.toList, by simp [eventText], by decide⟩
  | terminal t =>
    obtain ⟨c, s, hdisplay, hc⟩ := t.exists_display_eq_cons
    cases showLines with
    | false => exact ⟨c, s, hdisplay, hc⟩
    | true =>
      refine ⟨c, s ++ " (line ".toList ++ (toString t.line.toNat).toList ++ ")".toList, ?_, hc⟩
      simp only [eventText, if_true, String.toList_append, hdisplay, List.cons_append]

theorem head?_eventText_ne (showLines : Bool) (e : Event) :
    (eventText showLines e).toList.head? ≠ some ' ' := by
  obtain ⟨c, s, htext, hc⟩ := exists_eventText_eq_cons showLines e
  rw [htext]
  exact fun h => hc (Option.some.inj h)

/-- The signs that stand before the names of rules. -/
def signs : List String := ["> ", "< "]

/-- No caption looks like a sign, the captions `>` and `<` included. -/
theorem take_caption_ne {sign : String} (h : sign ∈ signs) (k : TokenKind) :
    k.caption.toList.take 2 ≠ sign.toList := by
  have key : ∀ sign ∈ signs, ∀ k ∈ TokenKind.all, k.caption.toList.take 2 ≠ sign.toList := by
    decide
  exact key sign h k k.mem_all

theorem display_ne_rule {sign : String} (hsign : sign ∈ signs) {t : Token} (ht : t.WellFormed)
    (r : Rule) : t.display ≠ sign ++ r.name := by
  intro h
  refine take_caption_ne hsign t.kind ?_
  have htake : t.display.toList.take 2 = sign.toList := by
    have hsize : ∀ sign ∈ signs, sign.toList.length = 2 := by decide
    rw [h, String.toList_append, ← hsize sign hsign]
    exact List.take_left
  cases hk : t.kind.keepsLexeme with
  | false => rwa [← Token.display_eq_caption ht hk]
  | true =>
    -- such a caption is long enough to show whether it is a sign
    have hlong : 2 ≤ t.kind.caption.toList.length := by
      have key : ∀ k ∈ TokenKind.all, k.keepsLexeme = true → 2 ≤ k.caption.toList.length := by
        decide
      exact key _ t.kind.mem_all hk
    rwa [Token.display_eq ht, String.toList_append, List.take_append_of_le_length hlong] at htake

/-- A terminal never looks like a rule, whether its line is shown or not. -/
theorem terminal_ne_rule {showLines : Bool} {sign : String} (hsign : sign ∈ signs) {t : Token}
    (ht : t.WellFormed) (r : Rule) : eventText showLines (.terminal t) ≠ sign ++ r.name := by
  cases showLines with
  | false => exact display_ne_rule hsign ht r
  | true =>
    -- no rule has a parenthesis in its name
    have hname : ∀ r ∈ Rule.all, ')' ∉ r.name.toList := by decide
    have hparen : ∀ sign ∈ signs, ')' ∉ sign.toList := by decide
    intro h
    have hmem : ')' ∈ (sign ++ r.name).toList := by
      rw [← h]
      simp [eventText]
    rw [String.toList_append, List.mem_append] at hmem
    exact hmem.elim (hparen sign hsign) (hname r r.mem_all)

/-- Where lines are shown, they can be told from the rest, even if that has such an ending too. -/
theorem terminal_inj {t u : Token}
    (h : eventText true (.terminal t) = eventText true (.terminal u)) :
    t.display = u.display ∧ t.line = u.line := by
  simp only [eventText, if_true] at h
  have hlist : (t.display ++ " (line").toList ++ ' ' :: (toString t.line.toNat).toList =
      (u.display ++ " (line").toList ++ ' ' :: (toString u.line.toNat).toList := by
    have hbody := congrArg String.toList ((String.append_left_inj ")").1 h)
    simpa using hbody
  have hdigits (n : Nat) : ' ' ∉ (toString n).toList := Text.not_mem_toString (by decide) n
  obtain ⟨hdisplay, hline⟩ := Text.append_last_stop_inj (hdigits _) (hdigits _) hlist
  exact ⟨(String.append_left_inj _).1 (String.toList_inj.1 hdisplay),
    UInt32.toNat_inj.1 (Text.toString_inj hline)⟩

/-- What is said about an event tells it, up to the place of a terminal if lines are not shown. -/
theorem eventText_inj {showLines : Bool} {e f : Event} (he : e.WellFormed) (hf : f.WellFormed)
    (h : eventText showLines e = eventText showLines f) :
    e.unplaced = f.unplaced ∧ (showLines = true → e = f) := by
  have hbegin : "> " ∈ signs := by decide
  have hend : "< " ∈ signs := by decide
  have hdiffer (r s : Rule) : "> " ++ r.name ≠ "< " ++ s.name := by
    intro h
    have hlist := congrArg String.toList h
    simp at hlist
  cases e with
  | commence r =>
    cases f with
    | commence s =>
      obtain rfl : r = s := Rule.name_injective ((String.append_right_inj _).1 h)
      exact ⟨rfl, fun _ => rfl⟩
    | terminal u => exact absurd h.symm (terminal_ne_rule hbegin (hf u rfl) r)
    | finish s => exact absurd h (hdiffer r s)
  | terminal t =>
    cases f with
    | commence s => exact absurd h (terminal_ne_rule hbegin (he t rfl) s)
    | terminal u =>
      have hdisplay : t.display = u.display := by
        cases showLines with
        | false => exact h
        | true => exact (terminal_inj h).1
      obtain ⟨hkind, hlexeme⟩ := Token.display_inj (he t rfl) (hf u rfl) hdisplay
      obtain ⟨k, n, x⟩ := t
      obtain ⟨l, m, y⟩ := u
      obtain rfl : k = l := hkind
      obtain rfl : x = y := hlexeme
      refine ⟨rfl, fun hshow => ?_⟩
      rw [hshow] at h
      rw [show n = m from (terminal_inj h).2]
    | finish s => exact absurd h (terminal_ne_rule hend (he t rfl) s)
  | finish r =>
    cases f with
    | commence s => exact absurd h.symm (hdiffer s r)
    | terminal u => exact absurd h.symm (terminal_ne_rule hend (hf u rfl) r)
    | finish s =>
      obtain rfl : r = s := Rule.name_injective ((String.append_right_inj _).1 h)
      exact ⟨rfl, fun _ => rfl⟩

theorem eventText_unplaced (e : Event) : eventText false e.unplaced = eventText false e := by
  cases e <;> rfl

/-! ## The lines of a dump -/

theorem levels_map_unplaced (depth : Nat) (es : List Event) :
    levels depth (es.map Event.unplaced) =
      (levels depth es).map fun row => (row.1, row.2.unplaced) := by
  induction es generalizing depth with
  | nil => rfl
  | cons e es ih =>
    cases e <;> exact congrArg (_ :: ·) (ih _)

/-- What is the same in two lists wherever `f` is the same is the same in both if `f` is. -/
theorem map_eq_of_map_eq {α β γ : Type} {f : α → β} {g : α → γ} : ∀ {as bs : List α},
    (∀ a ∈ as, ∀ b ∈ bs, f a = f b → g a = g b) → as.map f = bs.map f → as.map g = bs.map g
  | [], [], _, _ => rfl
  | [], b :: bs, _, h => nomatch h
  | a :: as, [], _, h => nomatch h
  | a :: as, b :: bs, hfg, h => by
    obtain ⟨hhead, htail⟩ := List.cons.inj h
    rw [List.map_cons, List.map_cons, hfg a List.mem_cons_self b List.mem_cons_self hhead,
      map_eq_of_map_eq (fun a ha b hb => hfg a (List.mem_cons_of_mem _ ha) b
        (List.mem_cons_of_mem _ hb)) htail]

/-- An event that is shown on one line, and has a lexeme just where its kind keeps one. -/
structure Readable (e : Event) : Prop where
  wellFormed : e.WellFormed
  oneLine : ∀ t, e = .terminal t → '\n' ∉ t.display.toList

/-- The dump of some events with `indent` spaces for a level. -/
def dumpText (indent : Nat) (showLines : Bool) (es : List Event) : String :=
  String.join ((levels 0 es).map fun row => indented (row.1 * indent) (eventText showLines row.2))

variable {indent : Nat} {showLines : Bool} {es fs : List Event}

theorem events_of_dumpText_eq (hes : ∀ e ∈ es, Readable e) (hfs : ∀ e ∈ fs, Readable e)
    (h : dumpText indent showLines es = dumpText indent showLines fs) :
    es.map Event.unplaced = fs.map Event.unplaced ∧ (showLines = true → es = fs) := by
  have hline (ds : List Event) (hds : ∀ e ∈ ds, Readable e) :
      ∀ l ∈ (levels 0 ds).map fun row => indented (row.1 * indent) (eventText showLines row.2),
        Text.IsLine l := by
    intro l hl
    obtain ⟨row, hrow, rfl⟩ := List.mem_map.1 hl
    have hevent := hds row.2 (event_mem_of_mem_levels hrow)
    exact Text.isLine_indented (lineFeed_not_mem_eventText hevent.oneLine) _
  have hlines := Text.join_lines_inj (hline es hes) (hline fs hfs) h
  -- row by row, the events have the same text and so are the same
  have hrow : ∀ row ∈ levels 0 es, ∀ row' ∈ levels 0 fs,
      indented (row.1 * indent) (eventText showLines row.2) =
        indented (row'.1 * indent) (eventText showLines row'.2) →
      row.2.unplaced = row'.2.unplaced ∧ (showLines = true → row.2 = row'.2) := by
    intro row hrow row' hrow' hsame
    have htext := (Text.indented_inj (head?_eventText_ne _ _) (head?_eventText_ne _ _) hsame).2
    exact eventText_inj (hes _ (event_mem_of_mem_levels hrow)).wellFormed
      (hfs _ (event_mem_of_mem_levels hrow')).wellFormed htext
  constructor
  · have hmap := map_eq_of_map_eq (g := fun row => row.2.unplaced)
      (fun row hr row' hr' hsame => (hrow row hr row' hr' hsame).1) hlines
    rw [← map_snd_levels 0 es, ← map_snd_levels 0 fs, List.map_map, List.map_map]
    exact hmap
  · intro hshow
    rw [← map_snd_levels 0 es, ← map_snd_levels 0 fs]
    exact map_eq_of_map_eq
      (fun row hr row' hr' hsame => (hrow row hr row' hr' hsame).2 hshow) hlines

/-- A dump without lines shows events up to the places of the terminals. -/
theorem dumpText_unplaced (indent : Nat) (es : List Event) :
    dumpText indent false (es.map Event.unplaced) = dumpText indent false es := by
  simp only [dumpText, levels_map_unplaced, List.map_map, Function.comp_def, eventText_unplaced]

theorem dumpText_eq_iff (hes : ∀ e ∈ es, Readable e) (hfs : ∀ e ∈ fs, Readable e) :
    dumpText indent showLines es = dumpText indent showLines fs ↔
      es.map Event.unplaced = fs.map Event.unplaced ∧ (showLines = true → es = fs) := by
  refine ⟨events_of_dumpText_eq hes hfs, fun ⟨hunplaced, hshow⟩ => ?_⟩
  cases showLines with
  | true => rw [hshow rfl]
  | false => rw [← dumpText_unplaced, hunplaced, dumpText_unplaced]

end Transcript

open Transcript

/-! ## Dumps of parses -/

theorem readable_of_mem_parse {source : String} {e : Event} (h : e ∈ (parseText source).events) :
    Readable e where
  wellFormed _ ht :=
    Lexer.wellFormed_of_mem_tokens
      (Parser.mem_of_terminal_mem_events (Lexer.handsOut _) rfl (ht ▸ h))
  oneLine _ ht := lineFeed_not_mem_display_of_accepted (ht ▸ h)

/-- What a transcript has heard of the parse of a source text. -/
def Transcript.ofSource (source : String) : Transcript :=
  (parseText source).notices.foldl hear .empty

theorem Transcript.events_ofSource (source : String) :
    (ofSource source).events = (parseText source).events := events_foldl_hear _

theorem Transcript.render?_ofSource (source : String) {layout : Layout}
    (h : layout.indent.toNat < 2 ^ 54) :
    (ofSource source).render? layout =
      some (dumpText layout.indent.toNat layout.showLines (parseText source).events) := by
  rw [render?, events_ofSource]
  exact Parser.renderEvents?_parse _ h

/-- **An event dump loses nothing.** The transcripts of the parses of two source texts, successful
or not, can be printed in any one layout whose indentation is sure to fit. The prints are the same
if and only if the events are the same, one by one, up to the lines of the terminals, and these
lines too if they are shown. -/
theorem event_dump_tells_events (a b : String) {layout : Layout}
    (h : layout.indent.toNat < 2 ^ 54) :
    ∃ dumpA dumpB, (ofSource a).render? layout = some dumpA ∧
      (ofSource b).render? layout = some dumpB ∧
      (dumpA = dumpB ↔
        (ofSource a).events.map Event.unplaced = (ofSource b).events.map Event.unplaced ∧
          (layout.showLines = true → (ofSource a).events = (ofSource b).events)) := by
  refine ⟨_, _, render?_ofSource a h, render?_ofSource b h, ?_⟩
  rw [events_ofSource, events_ofSource]
  exact dumpText_eq_iff (fun e he => readable_of_mem_parse he) fun e he => readable_of_mem_parse he

/-- A string that looks like what is put behind a terminal, and comparisons with the signs of rules;
nothing is indented. -/
theorem event_dump_tells_events_lookalikes :
    let a := "begin if x > \"(line 2)\" then call < "
    let b := "begin\nif x > \"(line 2)\" then\ncall if"
    let layout : Layout := ⟨0, true⟩
    layout.indent.toNat < 2 ^ 54 ∧
    ∃ dumpA dumpB, (ofSource a).render? layout = some dumpA ∧
      (ofSource b).render? layout = some dumpB ∧
      (dumpA = dumpB ↔
        (ofSource a).events.map Event.unplaced = (ofSource b).events.map Event.unplaced ∧
          (layout.showLines = true → (ofSource a).events = (ofSource b).events)) := by
  intro a b layout
  have h : layout.indent.toNat < 2 ^ 54 := by decide
  exact ⟨h, event_dump_tells_events a b h⟩

end StatementLang
