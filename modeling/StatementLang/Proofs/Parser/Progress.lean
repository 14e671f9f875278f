import StatementLang.Proofs.Parser.Descent
import StatementLang.Proofs.Parser.Frames
import StatementLang.Proofs.Parser.Truncation
import StatementLang.Proofs.Parser.Viability
/-!
# Progress between terminals

A parser that never took a token could call rules for ever. How many rules can still commence before
the next token is bounded by the stage of the innermost frame (`descent`), for the other frames wait
behind a call and have none to commence. So a parse keeps pace (`Paced`): one rule commences before
the first terminal, and at most three between a terminal and the next. All counts of events follow
from that (`progress_between_terminals`), and the limit is reached behind 342 terminals at the
earliest, which is where the program that nests fastest reaches it.
-/
namespace StatementLang

namespace Event

/-! ## Counting events -/

/-- The number of rules that some events commence. -/
def commenced (es : List Event) : Nat :=
  es.countP fun
    | commence _ => true
    | _ => false

/-- The number of rules that some events finish. -/
def finished (es : List Event) : Nat :=
  es.countP fun
    | finish _ => true
    | _ => false

@[simp] theorem commenced_commence (r : Rule) (es : List Event) :
    commenced (.commence r :: es) = commenced es + 1 := List.countP_cons_of_pos rfl

@[simp] theorem commenced_terminal (t : Token) (es : List Event) :
    commenced (.terminal t :: es) = commenced es := List.countP_cons_of_neg nofun

@[simp] theorem commenced_finish (r : Rule) (es : List Event) :
    commenced (.finish r :: es) = commenced es := List.countP_cons_of_neg nofun

@[simp] theorem finished_commence (r : Rule) (es : List Event) :
    finished (.commence r :: es) = finished es := List.countP_cons_of_neg nofun

@[simp] theorem finished_terminal (t : Token) (es : List Event) :
    finished (.terminal t :: es) = finished es := List.countP_cons_of_neg nofun

@[simp] theorem finished_finish (r : Rule) (es : List Event) :
    finished (.finish r :: es) = finished es + 1 := List.countP_cons_of_pos rfl

theorem terminals_commence (r : Rule) (es : List Event) :
    terminals (.commence r :: es) = terminals es := rfl

theorem terminals_terminal (t : Token) (es : List Event) :
    terminals (.terminal t :: es) = t :: terminals es := rfl

theorem terminals_finish (r : Rule) (es : List Event) :
    terminals (.finish r :: es) = terminals es := rfl

theorem commenced_append (es fs : List Event) :
    commenced (es ++ fs) = commenced es + commenced fs := List.countP_append

theorem commenced_le_of_prefix {es fs : List Event} (h : es <+: fs) :
    commenced es ≤ commenced fs := h.sublist.countP_le

/-- Every event commences a rule, finishes one or is a terminal. -/
theorem length_eq_counts (es : List Event) :
    es.length = commenced es + (terminals es).length + finished es := by
  induction es with
  | nil => rfl
  | cons e es ih =>
    rw [List.length_cons, ih]
    cases e with
    | commence r =>
      rw [commenced_commence, finished_commence, terminals_commence]
      omega
    | terminal t =>
      rw [commenced_terminal, finished_terminal, terminals_terminal, List.length_cons]
      omega
    | finish r =>
      rw [commenced_finish, finished_finish, terminals_finish]
      omega

/-- The rules that are open at the end are those commenced and not finished. -/
theorem counts_of_openRules {outer rs : List Rule} {es : List Event}
    (h : openRules outer es = some rs) :
    outer.length + commenced es = finished es + rs.length := by
  fun_induction openRules outer es with
  | case1 outer =>
    cases h
    exact (Nat.zero_add _).symm
  | case2 outer r es ih =>
    have hcounts := ih h
    rw [commenced_commence, finished_commence]
    rw [List.length_cons] at hcounts
    omega
  | case3 r outer t es ih =>
    rw [commenced_terminal, finished_terminal]
    exact ih h
  | case4 => cases h
  | case5 outer s es ih =>
    have hcounts := ih h
    rw [commenced_finish, finished_finish, List.length_cons]
    omega
  | case6 => cases h
  | case7 => cases h

/-! ## Pace -/

/-- The number of rules that have commenced since the last terminal. -/
def lately (es : List Event) : Nat :=
  es.foldl (fun n e => match e with
    | commence _ => n + 1
    | terminal _ => 0
    | finish _ => n) 0

/-- How many rules may commence between one terminal and the next, where `past` came before. -/
def pace (past : List Event) : Nat := if terminals past = [] then 1 else 3

/-- At no time more rules have commenced since the last terminal than the pace allows. -/
def Paced (es : List Event) : Prop := ∀ past, past <+: es → lately past ≤ pace past

theorem lately_concat_commence (es : List Event) (r : Rule) :
    lately (es ++ [.commence r]) = lately es + 1 := by
  rw [lately, List.foldl_append]
  rfl

theorem lately_concat_terminal (es : List Event) (t : Token) :
    lately (es ++ [.terminal t]) = 0 := by
  rw [lately, List.foldl_append]
  rfl

theorem lately_concat_finish (es : List Event) (r : Rule) :
    lately (es ++ [.finish r]) = lately es := by
  rw [lately, List.foldl_append]
  rfl

theorem pace_le (past : List Event) : pace past ≤ 3 := by
  unfold pace
  split <;> decide

theorem pace_append (past : List Event) {mid : List Event} (h : terminals mid = []) :
    pace (past ++ mid) = pace past := by
  rw [pace, terminals_append, h, List.append_nil]
  rfl

theorem pace_concat_terminal (past : List Event) (t : Token) :
    pace (past ++ [.terminal t]) = 3 := by
  simp [pace, terminals]

/-- Without a terminal in between, all that commences has commenced lately. -/
theorem lately_append (past : List Event) {mid : List Event} (h : terminals mid = []) :
    lately (past ++ mid) = lately past + commenced mid := by
  induction mid using List.reverseRecOn with
  | nil => simp [commenced]
  | append_singleton mid e ih =>
    rw [terminals_append, List.append_eq_nil_iff] at h
    rw [← List.append_assoc, commenced_append, ← Nat.add_assoc, ← ih h.1]
    cases e with
    | commence r => exact lately_concat_commence _ r
    | terminal t => cases h.2
    | finish r => exact lately_concat_finish _ r

theorem Paced.concat {es : List Event} {e : Event} (h : Paced es)
    (he : lately (es ++ [e]) ≤ pace (es ++ [e])) : Paced (es ++ [e]) := by
  intro past hpast
  rcases List.prefix_concat_iff.1 hpast with rfl | hpast
  · exact he
  · exact h past hpast

/-- What commences between two terminals keeps the pace. -/
theorem Paced.commenced_le {es past mid : List Event} (h : Paced es) (hmid : past ++ mid <+: es)
    (hterminals : terminals mid = []) : commenced mid ≤ pace past := by
  have hle := h _ hmid
  rw [lately_append past hterminals, pace_append past hterminals] at hle
  omega

/-- One rule commences before the first terminal, three behind each, and the rest lately. -/
theorem Paced.commenced_le_lately {es : List Event} (h : Paced es) :
    commenced es ≤ lately es + (3 * (terminals es).length - 2) := by
  induction es using List.reverseRecOn with
  | nil => exact Nat.zero_le _
  | append_singleton es e ih =>
    have hes : Paced es := fun past hpast => h past (hpast.trans (List.prefix_append es [e]))
    have hle := ih hes
    rw [commenced_append, terminals_append, List.length_append]
    cases e with
    | commence r =>
      rw [lately_concat_commence]
      have hone : commenced [.commence r] = 1 := rfl
      have hnone : (terminals [.commence r]).length = 0 := rfl
      omega
    | terminal t =>
      have hpace := hes es List.prefix_rfl
      have hzero : commenced [.terminal t] = 0 := rfl
      have hmore : (terminals [.terminal t]).length = 1 := rfl
      rw [lately_concat_terminal]
      -- before the first terminal one rule has commenced lately, and no other
      rcases Nat.eq_zero_or_pos (terminals es).length with hk | hk
      · rw [pace, if_pos (List.length_eq_zero_iff.1 hk)] at hpace
        omega
      · have hthree := pace_le es
        omega
    | finish r =>
      rw [lately_concat_finish]
      have hzero : commenced [.finish r] = 0 := rfl
      have hnone : (terminals [.finish r]).length = 0 := rfl
      omega

end Event

namespace Parser

open Event Item

/-! ## Rules before a token -/

/-- How many rules commence at most, this one among them, before a token is taken. -/
def ruleDescent : Rule → Nat
  | .statementList | .expression => 3
  | .statement | .term => 2
  | _ => 1

/-- How many rules commence at most within what a choice picks, before a token is taken. -/
def Choice.descent : Choice → Nat
  | statementForm => 1
  | assignedValue => 3
  | _ => 0

/-- How many rules commence at most within some items, before a token is taken. -/
def descent : List Item → Nat
  | call r :: _ => ruleDescent r
  | choose c :: _ => c.descent
  | _ => 0

section
variable {r r' : Rule} {c : Choice} {k : TokenKind} {is js : List Item}

theorem ruleDescent_le (r : Rule) : ruleDescent r ≤ 3 := by cases r <;> decide

theorem descent_le (is : List Item) : descent is ≤ 3 := by
  unfold descent
  split
  · exact ruleDescent_le _
  · rename_i c _
    cases c <;> decide
  · exact Nat.zero_le 3

theorem descent_plan_lt (r : Rule) : descent (plan r) < ruleDescent r := by cases r <;> decide

/-- Behind a call no rule is called before a token is taken. -/
theorem descent_of_call (h : call r' :: is ∈ stages r) : descent is = 0 := by
  have key : ∀ todo ∈ stages r, ∀ r' ∈ Rule.all, todo.head? = some (call r') →
      descent todo.tail = 0 := by
    cases r <;> decide
  exact key _ h r' r'.mem_all rfl

/-- What is picked descends no further than the choice. -/
theorem descent_of_pick (h : choose c :: is ∈ stages r) (pick : c.pick k = some js) :
    descent (js ++ is) ≤ c.descent := by
  have key : ∀ todo ∈ stages r, ∀ is ∈ leftAfter todo, todo.head?.any Item.isTake = false →
      descent is ≤ descent todo := by
    cases r <;> decide
  exact key _ h _ (List.mem_map_of_mem (mem_ways_of_pick pick)) rfl

end

/-! ## The pace of a parse -/

variable {σ : Type} {limit : Option Nat}

/-- How many rules commence at most before a token is taken. -/
def upcoming (frames : List Frame) : Nat := frames.head?.elim 0 fun f => descent f.todo

/-- The parse keeps pace, and will do so until it takes a token. -/
structure KeepsPace (s : State σ) : Prop where
  staged : Staged s.frames
  paced : Paced s.events
  now : lately s.events + upcoming s.frames ≤ pace s.events

/-- An event is told; the pace is kept if it is kept at the end. -/
theorem keepsPace_concat {s s' : State σ} {e : Event} (hpaced : Paced s.events)
    (hstaged : Staged s'.frames) (he : s'.events = s.events ++ [e])
    (hnow : lately (s.events ++ [e]) + upcoming s'.frames ≤ pace (s.events ++ [e])) :
    KeepsPace s' := by
  refine ⟨hstaged, ?_, ?_⟩
  · rw [he]
    exact hpaced.concat (Nat.le_trans (Nat.le_add_right _ _) hnow)
  · rw [he]
    exact hnow

/-- What has commenced and what still may, by the number of the terminals. -/
theorem KeepsPace.commenced_le {s : State σ} (h : KeepsPace s) :
    commenced s.events + upcoming s.frames ≤ 3 * s.pos + 1 := by
  have hle := h.paced.commenced_le_lately
  have hnow := h.now
  have hpos : s.pos = (terminals s.events).length := rfl
  rcases Nat.eq_zero_or_pos s.pos with hk | hk
  · have hnone : terminals s.events = [] := List.length_eq_zero_iff.1 hk
    rw [pace, if_pos hnone] at hnow
    omega
  · have hthree := pace_le s.events
    omega

variable [TokenFeed σ] {feed : σ}

theorem keepsPace_opened (feed : σ) : KeepsPace (opened feed) where
  staged := staged_opened feed
  paced := by
    have hnil : Paced [] := by
      intro past hpast
      rw [List.prefix_nil.1 hpast]
      exact Nat.zero_le _
    have hone : Paced ([] ++ [.commence .statementPart]) := hnil.concat (Nat.le_refl 1)
    exact hone
  now := Nat.le_refl 1

theorem keepsPace_of_move (s s' : State σ) (hs : KeepsPace s) (h : Move limit s s') :
    KeepsPace s' := by
  have hstaged' : Staged s'.frames := staged_of_move s s' hs.staged h
  obtain ⟨hstaged, hpaced, hnow⟩ := hs
  cases h with
  | @finish t feed r outer past =>
    -- the frame outside waited for this one, and has nothing to call
    have houter : upcoming outer = 0 := by
      cases outer with
      | nil => rfl
      | cons f outer =>
        obtain ⟨r', hr'⟩ := hstaged.waiting f List.mem_cons_self
        exact descent_of_call hr'
    refine keepsPace_concat hpaced hstaged' List.reverse_cons ?_
    rw [lately_concat_finish, pace_append _ rfl, houter]
    exact Nat.le_trans (Nat.le_add_right _ _) hnow
  | @take t feed r ts is outer past fit =>
    refine keepsPace_concat hpaced hstaged' List.reverse_cons ?_
    rw [lately_concat_terminal, pace_concat_terminal, Nat.zero_add]
    exact descent_le is
  | @call t feed r r' is outer past room =>
    have hplan : upcoming (⟨r', plan r'⟩ :: ⟨r, is⟩ :: outer) < ruleDescent r' :=
      descent_plan_lt r'
    refine keepsPace_concat hpaced hstaged' List.reverse_cons ?_
    rw [lately_concat_commence, pace_append _ rfl, Nat.add_assoc, Nat.add_comm 1]
    exact Nat.le_trans (Nat.add_le_add_left hplan _) hnow
  | @choose t feed r c is js outer past pick =>
    have hpick : upcoming (⟨r, js ++ is⟩ :: outer) ≤ upcoming (⟨r, .choose c :: is⟩ :: outer) :=
      descent_of_pick (hstaged.top ⟨r, .choose c :: is⟩ rfl) pick
    exact ⟨hstaged', hpaced, Nat.le_trans (Nat.add_le_add_left hpick _) hnow⟩

theorem keepsPace_of_steps {s : State σ} (h : Steps limit (opened feed) s) : KeepsPace s :=
  of_steps keepsPace_of_move h (keepsPace_opened feed)

/-- Where the limit ends a parse, one more rule could have commenced. -/
theorem pos_of_tooDeep {s : State σ} {n : Nat} (hsteps : Steps (some n) (opened feed) s)
    (hhalt : Halt (some n) s (.rejected (.tooDeep n))) (hn : 1 ≤ n) : n ≤ 3 * s.pos := by
  have hle := (keepsPace_of_steps hsteps).commenced_le
  have hopen := counts_of_openRules (nested_of_steps (within_some.2 hn) hsteps).reads
  rw [List.length_nil, Nat.zero_add] at hopen
  have hfull := (exists_commence_of_tooDeep hn hsteps hhalt).2.1
  have hupcoming : 1 ≤ upcoming s.frames := by
    cases hhalt with
    | @tooDeep t feed r r' =>
      have key : ∀ r : Rule, 1 ≤ ruleDescent r := fun r => by cases r <;> decide
      exact key r'
  omega

/-- A queue whose first tokens are of these kinds hands them out. -/
theorem kind_get_of_prefix {ts : List Token} {ks : List TokenKind}
    (h : ks <+: ts.map Token.kind) {i : Nat} (hi : i < ks.length) :
    (TokenFeed.get (TokenQueue.ofList ts) i).kind = ks.getD i .eof := by
  obtain ⟨rest, hrest⟩ := h
  rw [TokenFeed.kind_get (TokenQueue.handsOut_ofList ts), ← hrest, List.getD_eq_getElem?_getD,
    List.getElem?_append_left hi, ← List.getD_eq_getElem?_getD]

/-- **Progress between terminals.** In the events of a parse at most one rule commences before the
first terminal, and at most three between two terminals or behind the last one. So `k` terminals
come with at most `3 * k + 1` rules, open at once or not, and with at most `7 * k + 2` events. The
limit is reported behind 342 terminals at the earliest, and that is where it is reported if the
tokens begin with `begin` and 341 times `do`. -/
theorem progress_between_terminals (ts : List Token) :
    let p := parse (TokenQueue.ofList ts)
    let k := (terminals p.events).length
    let tooDeep := ∃ e, p.error = some e ∧ e.expected = "at most 1024 nested rules"
    (∀ past mid, past ++ mid <+: p.events → terminals mid = [] →
      commenced mid ≤ if terminals past = [] then 1 else 3) ∧
    (commenced p.events ≤ 3 * k + 1 ∧ p.events.length ≤ 7 * k + 2 ∧
      NestsWithin (3 * k + 1) p.events) ∧
    (tooDeep → 342 ≤ k) ∧
    (.kwBegin :: List.replicate 341 .kwDo <+: ts.map Token.kind → tooDeep ∧ k = 342) := by
  intro p k tooDeep
  obtain ⟨v, s, hsteps, hhalt, hp⟩ := exists_steps_halt (TokenQueue.ofList ts)
  have hevents : p.events = s.events := congrArg Parse.events hp
  have hpace : KeepsPace s := keepsPace_of_steps hsteps
  have hk : k = s.pos := by rw [State.pos, State.accepted, ← hevents]
  have hcommenced : commenced p.events ≤ 3 * k + 1 := by
    have hle := hpace.commenced_le
    rw [hevents, hk]
    omega
  refine ⟨fun past mid hmid hnone => ?_,
    ⟨hcommenced, ?_, fun past rules hpast hrules => ?_⟩, ?_, ?_⟩
  · exact hpace.paced.commenced_le (hevents ▸ hmid) hnone
  · -- what is finished has been commenced
    obtain ⟨rs, hopen⟩ := exists_openRules (TokenQueue.ofList ts)
    have hcounts := counts_of_openRules hopen
    rw [List.length_nil, Nat.zero_add] at hcounts
    have hlength := length_eq_counts p.events
    have hle : finished p.events ≤ commenced p.events := hcounts ▸ Nat.le_add_right _ _
    omega
  · have hcounts := counts_of_openRules hrules
    rw [List.length_nil, Nat.zero_add] at hcounts
    have hle := commenced_le_of_prefix hpast
    omega
  · rintro ⟨e, he, hexpected⟩
    obtain ⟨fault, hfault, rfl⟩ := exists_fault_of_error he
    have hv : v = .rejected fault := by
      rw [← hfault]
      exact (congrArg Parse.verdict hp).symm
    subst hv
    have hfull : maxDepth ≤ 3 * s.pos := by
      rcases openRules_of_rejected hhalt (nested_of_steps (within_some.2 (by decide)) hsteps) with
        ⟨r, outer, rfl, -⟩ | ⟨n, hn, rfl, -⟩
      · exact absurd hexpected.symm (expected_tooDeep_ne r)
      · cases hn
        exact pos_of_tooDeep hsteps hhalt (by decide)
    have hdepth : maxDepth = 1024 := rfl
    omega
  · intro hkinds
    have hfastest : fastest <+: ts.map Token.kind := hkinds
    obtain ⟨hverdict, es, t, rules, -, -, -, hcount⟩ :=
      exists_deepest fun i hi => kind_get_of_prefix hfastest hi
    refine ⟨⟨.ofToken p.lookahead (ParseFault.tooDeep maxDepth).expected, ?_, rfl⟩, hcount⟩
    simp only [Parse.error, p, hverdict]

end Parser
end StatementLang
