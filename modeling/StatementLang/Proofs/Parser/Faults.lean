import StatementLang.Proofs.Parser.Acceptance
import StatementLang.Proofs.Parser.Frames
import StatementLang.Proofs.Parser.Nesting
import StatementLang.Proofs.Parser.Viability
/-!
# Faults are found where they are

Cut a program off, or put a token into it that is in no program: the parse accepts what stands
before that place and fails right there (`caught_where_it_is`). Up to there it goes as the parse of
the program does. From there on it takes nothing: it opens the rules that the program's parse opens,
until a choice turns out otherwise, and then it only closes rules, up to one that demands a token
(`settles_or_choosesValue`). One choice alone can open rules that the program's parse did not open:
where that took a text to be assigned, this one tries an expression, and its three rules may be too
many (`failsWithin_of_choosesValue`).
-/
namespace StatementLang

/-- A text is told behind `n` terminals, directly within an assignment that is the `depth`-th open
rule. -/
def Event.TextAssigned (es : List Event) (n depth : Nat) : Prop :=
  ∃ past t outer, past ++ [.terminal t] <+: es ∧ (terminals past).length = n ∧ t.kind = .string ∧
    openRules [] past = some (.assignment :: outer) ∧ outer.length + 1 = depth

namespace Parser

open Event Item TokenFeed

variable {σ τ : Type} [TokenFeed σ] [TokenFeed τ] {f : σ} {g : τ} {limit : Option Nat}

/-! ## Where a text is assigned -/

/-- The innermost rule is an assignment, and what it assigns is to be chosen next. -/
def State.ChoosesValue (s : State σ) (outer : List Frame) : Prop :=
  s.frames = ⟨.assignment, [choose .assignedValue]⟩ :: outer

/-- An assignment takes a text where it has chosen to do so. -/
theorem choosesValue_before_string {s : State σ} {outer : List Frame}
    (h : Steps limit (opened f) s) (hs : s.frames = ⟨.assignment, [takeOne .string]⟩ :: outer) :
    ∃ b, Steps limit (opened f) b ∧ b.ChoosesValue outer ∧ b.accepted = s.accepted := by
  rcases Relation.ReflTransGen.cases_tail h with rfl | ⟨b, hb, hm⟩
  · cases hs
  obtain ⟨before, hstage, hleft, hframes⟩ :=
    exists_stage_before (staged_of_steps hb) hm hs (by decide)
  obtain rfl := eq_of_leftAfter_string hstage hleft
  rcases hframes with hframes | ⟨r', hr'⟩
  · refine ⟨b, hb, hframes, ?_⟩
    cases hm <;> cases hframes
    rfl
  · cases hr'

/-- It comes to choose what it assigns by taking a token. -/
theorem take_before_choosesValue {s : State σ} {outer : List Frame}
    (h : Steps limit (opened f) s) (hs : s.ChoosesValue outer) :
    ∃ b, Steps limit (opened f) b ∧ Move limit b s ∧ b.pos < s.pos := by
  rcases Relation.ReflTransGen.cases_tail h with rfl | ⟨b, hb, hm⟩
  · cases hs
  obtain ⟨before, hstage, hleft, hframes⟩ :=
    exists_stage_before (staged_of_steps hb) hm hs (by decide)
  obtain rfl := eq_of_leftAfter_assignedValue hstage hleft
  rcases hframes with hframes | ⟨r', hr'⟩
  · refine ⟨b, hb, hm, ?_⟩
    cases hm <;> cases hframes
    simp [State.pos, State.accepted, State.events, terminals]
  · cases hr'

/-- What was told of it leads back to the choice. -/
theorem exists_choosesValue_of_textAssigned {s : State σ} {n depth : Nat} (h1 : Within limit 1)
    (h : Steps limit (opened f) s) (ht : TextAssigned s.events n depth) :
    ∃ b outer, Steps limit (opened f) b ∧ b.ChoosesValue outer ∧ b.pos = n ∧
      outer.length + 1 = depth := by
  obtain ⟨past, t, rules, hpast, hn, hkind, hopen, hdepth⟩ := ht
  obtain ⟨a, r, ts, is, outer, ha, rfl, rfl, hframes, fit⟩ := exists_take_of_terminal h hpast
  have hreads := (nested_of_steps h1 ha).reads
  rw [hopen, State.openRules, hframes, List.map_cons, Option.some.injEq, List.cons.injEq] at hreads
  obtain ⟨rfl, rfl⟩ := hreads
  have hstage : take ts :: is ∈ stages .assignment :=
    (staged_of_steps ha).top ⟨.assignment, take ts :: is⟩ (by rw [hframes]; rfl)
  rw [eq_of_string_mem hstage (hkind ▸ fit)] at hframes
  obtain ⟨b, hb, hchooses, haccepted⟩ := choosesValue_before_string ha hframes
  refine ⟨b, outer, hb, hchooses, ?_, ?_⟩
  · rw [State.pos, haccepted]
    exact hn
  · rwa [List.length_map] at hdepth

/-- And where a text comes next, the choice leads to its being told. -/
theorem textAssigned_of_choosesValue {b s : State σ} {outer : List Frame} {v : Verdict}
    (h1 : Within limit 1) (hb : Steps limit (opened f) b) (hs : Steps limit b s)
    (hhalt : Halt limit s v) (hchooses : b.ChoosesValue outer)
    (hkind : b.lookahead.kind = .string) : TextAssigned s.events b.pos (outer.length + 1) := by
  have hreads := (nested_of_steps h1 hb).reads
  obtain ⟨t, feed, frames, past⟩ := b
  obtain rfl : frames = _ := hchooses
  have hkind : t.kind = .string := hkind
  -- the two moves from the choice on
  have hpick : Choice.assignedValue.pick t.kind = some [takeOne .string] := by rw [hkind]; rfl
  have hchoose : Move limit ⟨t, feed, ⟨.assignment, [choose .assignedValue]⟩ :: outer, past⟩
      ⟨t, feed, ⟨.assignment, [takeOne .string]⟩ :: outer, past⟩ := .choose hpick
  have htake : Move limit ⟨t, feed, ⟨.assignment, [takeOne .string]⟩ :: outer, past⟩
      ⟨(pull feed).1, (pull feed).2, ⟨.assignment, []⟩ :: outer, .terminal t :: past⟩ :=
    .take (List.mem_singleton.2 hkind)
  have hpre := events_prefix_of_steps (steps_of_halt (.tail (.single hchoose) htake) hs hhalt)
  refine ⟨past.reverse, t, outer.map Frame.rule, ?_, rfl, hkind, hreads, ?_⟩
  · rwa [State.events, List.reverse_cons] at hpre
  · rw [List.length_map]

/-! ## At a token that is in no program -/

/-- The parse goes on from `s` and is rejected, for want of `depth` open rules if there may not be
as many, and otherwise by a rule. -/
def FailsWithin (n depth : Nat) (s : State σ) : Prop :=
  ∃ s' fault, Steps (some n) s s' ∧ Halt (some n) s' (.rejected fault) ∧
    (fault = .tooDeep n ∧ n < depth ∨ (∃ r, fault = .mismatch r) ∧ depth ≤ n)

/-- To call a rule is to need room for it. -/
theorem failsWithin_call {n depth : Nat} {t : Token} {feed : σ} {r r' : Rule} {is : List Item}
    {outer : List Frame} {past : List Event} (hdepth : outer.length + 2 ≤ depth)
    (h : outer.length + 2 ≤ n → FailsWithin n depth
      ⟨t, feed, ⟨r', plan r'⟩ :: ⟨r, is⟩ :: outer, .commence r' :: past⟩) :
    FailsWithin n depth ⟨t, feed, ⟨r, .call r' :: is⟩ :: outer, past⟩ := by
  by_cases hroom : outer.length + 2 ≤ n
  · obtain ⟨s', fault, hsteps, hhalt, hfault⟩ := h hroom
    exact ⟨s', fault, .head (.call (within_some.2 hroom)) hsteps, hhalt, hfault⟩
  · exact ⟨_, .tooDeep n, .refl, .tooDeep rfl (by omega), .inl ⟨rfl, by omega⟩⟩

theorem failsWithin_choose {n depth : Nat} {t : Token} {feed : σ} {r : Rule} {c : Choice}
    {is js : List Item} {outer : List Frame} {past : List Event} (pick : c.pick t.kind = some js)
    (h : FailsWithin n depth ⟨t, feed, ⟨r, js ++ is⟩ :: outer, past⟩) :
    FailsWithin n depth ⟨t, feed, ⟨r, .choose c :: is⟩ :: outer, past⟩ := by
  obtain ⟨s', fault, hsteps, hhalt, hfault⟩ := h
  exact ⟨s', fault, .head (.choose pick) hsteps, hhalt, hfault⟩

/-- Where a value is to be assigned, an expression is tried, in it a term, and in it a factor. -/
theorem failsWithin_of_choosesValue {n : Nat} {s : State σ} {outer : List Frame}
    (hs : s.ChoosesValue outer) (hk : s.lookahead.kind.isTerminal = false) :
    FailsWithin n (outer.length + 4) s := by
  obtain ⟨t, feed, frames, past⟩ := s
  obtain rfl : frames = _ := hs
  refine failsWithin_choose (pick_assignedValue hk) ?_
  refine failsWithin_call (by omega) fun _ => ?_
  refine failsWithin_call (by simp) fun _ => ?_
  refine failsWithin_call (Nat.le_refl _) fun hroom => ?_
  exact ⟨_, _, .refl, .noWay (pick_factorForm hk), .inr ⟨⟨_, rfl⟩, hroom⟩⟩

/-- Let `a` lie on the way of a parse that is accepted, and another parse be alike there but look at
a token that is in no program. It comes to call no more rules, or to choose the value of an
assignment where the first parse takes a text. -/
theorem settles_or_choosesValue {a z : State σ} {a' : State τ} (ha : Steps limit (opened f) a)
    (hz : Steps limit a z) (hhalt : Halt limit z .accepted) (alike : Alike a a')
    (hk : a'.lookahead.kind.isTerminal = false) :
    ∃ b', Steps limit a' b' ∧ (Settled b'.frames ∨
      ∃ b outer, Steps limit (opened f) b ∧ Steps limit b z ∧ Alike b b' ∧
        b.lookahead.kind = .string ∧ b.ChoosesValue outer) := by
  -- The other parse goes along with the accepted one for as long as that calls rules.
  induction hz using Relation.ReflTransGen.head_induction_on generalizing a' with
  | refl =>
    refine ⟨a', .refl, .inl ?_⟩
    rw [Settled, alike.frames]
    cases hhalt
    simp
  | @head a c hm hc ih =>
    have hstaged := staged_of_steps ha
    obtain ⟨t', feed', frames', past'⟩ := a'
    obtain rfl : frames' = a.frames := alike.frames
    cases hm with
    | finish => exact ⟨_, .refl, .inl (hstaged.settled rfl)⟩
    | take => exact ⟨_, .refl, .inl (hstaged.settled rfl)⟩
    | @call t feed r r' is outer past room =>
      have hm' : Move limit ⟨t', feed', ⟨r, call r' :: is⟩ :: outer, past'⟩
          ⟨t', feed', ⟨r', plan r'⟩ :: ⟨r, is⟩ :: outer, .commence r' :: past'⟩ := .call room
      obtain ⟨b', hb', hend⟩ := ih (ha.tail (.call room)) (alike.tell rfl) hk
      exact ⟨b', .head hm' hb', hend⟩
    | @choose t feed r c is js outer past pick =>
      -- every other choice goes by the kind of the token, and this kind leads to no call
      by_cases hvalue : c = .assignedValue
      · subst hvalue
        obtain ⟨rfl, rfl⟩ := eq_of_assignedValue_mem_stages (hstaged.top _ rfl)
        by_cases htext : t.kind = .string
        · exact ⟨_, .refl, .inr ⟨_, outer, ha, .head (.choose pick) hc, alike, htext, rfl⟩⟩
        · obtain rfl : [call .expression] = js := by simpa [Choice.pick, htext] using pick
          have hm' : Move limit ⟨t', feed', ⟨.assignment, [choose .assignedValue]⟩ :: outer, past'⟩
              ⟨t', feed', ⟨.assignment, [call .expression]⟩ :: outer, past'⟩ :=
            .choose (pick_assignedValue hk)
          have alike' : Alike ⟨t, feed, ⟨.assignment, [call .expression]⟩ :: outer, past⟩
              ⟨t', feed', ⟨.assignment, [call .expression]⟩ :: outer, past'⟩ := ⟨rfl, alike.events⟩
          obtain ⟨b', hb', hend⟩ := ih (ha.tail (.choose pick)) alike' hk
          exact ⟨b', .head hm' hb', hend⟩
      · refine ⟨_, .refl, .inl (hstaged.settled ?_)⟩
        cases c <;> first | rfl | exact absurd rfl hvalue

/-! ## Two kinds of reports -/

section
variable {n i : Nat} {z : State σ} {e : State τ} {v : Verdict} {fault : ParseFault}

/-- If two feeds agree up to a token that is in no program, the parses of both come to this place
alike, and the one that finds this token there takes nothing more. -/
theorem exists_steps_to_fault (hn : 1 ≤ n) (hz : Steps (some n) (opened f) z) (hi : i ≤ z.pos)
    (agree : ∀ j < i, (get g j).kind = (get f j).kind) (hk : (get g i).kind.isTerminal = false)
    (he : Steps (some n) (opened g) e) (hv : Halt (some n) e v) :
    ∃ a a', Steps (some n) (opened f) a ∧ Steps (some n) a z ∧ a.pos = i ∧
      Steps (some n) (opened g) a' ∧ Alike a a' ∧ a'.lookahead = get g i ∧
      Steps (some n) a' e ∧ Kept a' e := by
  obtain ⟨a, a', ha, haz, rfl, ha', alike⟩ := exists_steps_at hz hi agree
  have hon : a'.On g := on_of_steps ha' (on_opened g)
  have hlook : a'.lookahead = get g a.pos := alike.pos ▸ hon.lookahead
  have hae : Steps (some n) a' e := steps_of_halt ha' he hv
  have hkept : Kept a' e := kept_of_steps (within_some.2 hn) ha' (hlook ▸ hk) hae
  exact ⟨a, a', ha, haz, rfl, ha', alike, hlook, hae, hkept⟩

/-- If rules nest too deep for this parse, the other, which is accepted, assigns a text there. -/
theorem textAssigned_of_tooDeep {m : Nat} (hn : 1 ≤ n) (hz : Steps (some n) (opened f) z)
    (hhalt : Halt (some n) z .accepted) (hi : i ≤ z.pos)
    (agree : ∀ j < i, (get g j).kind = (get f j).kind) (hk : (get g i).kind.isTerminal = false)
    (he : Steps (some n) (opened g) e) (hv : Halt (some n) e (.rejected (.tooDeep m))) :
    ∃ depth, TextAssigned z.events i depth ∧ depth ≤ n ∧ n < depth + 3 := by
  have hone : Within (some n) 1 := within_some.2 hn
  obtain ⟨a, a', ha, haz, rfl, ha', alike, hlook, hae, -⟩ :=
    exists_steps_to_fault hn hz hi agree hk he hv
  have hk' : a'.lookahead.kind.isTerminal = false := hlook ▸ hk
  obtain ⟨b', hb', hend⟩ := settles_or_choosesValue ha haz hhalt alike hk'
  have hkept : Kept a' b' := kept_of_steps hone ha' hk' hb'
  have hkb : b'.lookahead.kind.isTerminal = false := hkept.lookahead ▸ hk'
  rcases hend with hset | ⟨b, outer, hb, hbz, alike', hkind, hchooses⟩
  · -- no rule is called once the frames are settled
    have hkept' := kept_of_steps hone (ha'.trans hb') hkb (steps_of_halt hb' hae hv)
    have hsettled := hkept'.settled hset
    cases hv
    cases (List.forall_mem_cons.1 hsettled).1
  · have hpos : b.pos = a.pos := by
      rw [← alike'.pos, ← alike.pos, State.pos, State.pos, hkept.accepted]
    have hchooses' : b'.ChoosesValue outer := alike'.frames.trans hchooses
    obtain ⟨s', fault, hs', hhalt', hfault⟩ := failsWithin_of_choosesValue (n := n) hchooses' hkb
    obtain ⟨hsame, -⟩ := halt_unique (hb'.trans hs') hhalt' hae hv
    cases hsame
    have hdepth : outer.length + 1 ≤ n := by
      have hroom := within_some.1 (nested_of_steps hone hb).room
      rwa [hchooses, List.length_cons] at hroom
    refine ⟨outer.length + 1, ?_, hdepth, ?_⟩
    · exact hpos ▸ textAssigned_of_choosesValue hone hb hbz hhalt hchooses hkind
    · rcases hfault with ⟨-, hlt⟩ | ⟨⟨r, hr⟩, -⟩
      · omega
      · cases hr

/-- And if it assigns a text where there is room for less than three rules, rules nest too deep. -/
theorem tooDeep_of_textAssigned {depth : Nat} (hn : 1 ≤ n) (hz : Steps (some n) (opened f) z)
    (ht : TextAssigned z.events i depth) (hdepth : n < depth + 3)
    (agree : ∀ j < i, (get g j).kind = (get f j).kind) (hk : (get g i).kind.isTerminal = false)
    (he : Steps (some n) (opened g) e) (hv : Halt (some n) e v) :
    v = .rejected (.tooDeep n) := by
  obtain ⟨b, outer, hb, hchooses, rfl, rfl⟩ :=
    exists_choosesValue_of_textAssigned (within_some.2 hn) hz ht
  -- the choice comes right behind the token before, up to which the parses go alike
  obtain ⟨c, hc, hm, hlt⟩ := take_before_choosesValue hb hchooses
  obtain ⟨c', hc', alike⟩ := steps_of_alike (g := g) hc fun j hj => agree j (by omega)
  obtain ⟨b', hb', alike'⟩ := exists_steps_tail hc hc' alike hm (agree c.pos hlt)
  have hlook : b'.lookahead = get g b.pos := alike'.pos ▸ (on_of_steps hb' (on_opened g)).lookahead
  have hchooses' : b'.ChoosesValue outer := alike'.frames.trans hchooses
  obtain ⟨s', fault, hs', hhalt', hfault⟩ :=
    failsWithin_of_choosesValue (n := n) hchooses' (hlook ▸ hk)
  obtain ⟨rfl, -⟩ := halt_unique (hb'.trans hs') hhalt' he hv
  rcases hfault with ⟨rfl, -⟩ | ⟨-, hle⟩
  · rfl
  · omega

/-- What is said of the token depends on what the accepted parse does in its place. -/
theorem report_of_fault (hz : Steps (some maxDepth) (opened f) z)
    (hhalt : Halt (some maxDepth) z .accepted) (hi : i ≤ z.pos)
    (agree : ∀ j < i, (get g j).kind = (get f j).kind) (hk : (get g i).kind.isTerminal = false)
    (he : Steps (some maxDepth) (opened g) e)
    (hv : Halt (some maxDepth) e (.rejected fault)) :
    let tooDeep := ∃ depth ∈ [1022, 1023, 1024], TextAssigned z.events i depth
    tooDeep ∧ fault.expected = "at most 1024 nested rules" ∨
      ¬ tooDeep ∧ ∃ r : Rule, fault.expected = r.expected := by
  intro tooDeep
  have hlast (depth : Nat) :
      depth ∈ [1022, 1023, 1024] ↔ depth ≤ maxDepth ∧ maxDepth < depth + 3 := by
    simp only [maxDepth, List.mem_cons, List.not_mem_nil, or_false]
    omega
  by_cases htext : tooDeep
  · have ⟨depth, hdepth, ht⟩ := htext
    cases tooDeep_of_textAssigned (by decide) hz ht ((hlast depth).1 hdepth).2 agree hk he hv
    exact .inl ⟨htext, rfl⟩
  · refine .inr ⟨htext, ?_⟩
    cases fault with
    | mismatch r => exact ⟨r, rfl⟩
    | tooDeep m =>
      obtain ⟨depth, ht, hdepth⟩ :=
        textAssigned_of_tooDeep (by decide) hz hhalt hi agree hk he hv
      exact absurd ⟨depth, (hlast depth).2 hdepth, ht⟩ htext

end

/-! ## The place of the fault -/

/-- The parse accepts `before` and fails at `bad` behind it. It reports that rules nest too deep if
`tooDeep` holds, and otherwise what some rule expects. -/
def FailsAt (p : Parse σ) (before : List Token) (bad : Token) (tooDeep : Prop) : Prop :=
  terminals p.events = before ∧ ∃ e, p.error = some e ∧ e.found = bad.kind ∧ e.line = bad.line ∧
    (tooDeep ∧ e.expected = "at most 1024 nested rules" ∨
      ¬ tooDeep ∧ ∃ r : Rule, e.expected = r.expected)

/-- A part of a program is no program. -/
theorem error_ne_none_of_take {w : List Token} {n : Nat}
    (h : (parse (TokenQueue.ofList w)).error = none)
    (hw : terminals (parse (TokenQueue.ofList w)).events = w) (hn : n < w.length)
    (hg : terminals (parse g).events = w.take n) : (parse g).error ≠ none := by
  intro hnone
  obtain ⟨t, ht, -, he, hreads⟩ := exists_program_of_error_eq_none h
  obtain ⟨u, hu, -, he', -⟩ := exists_program_of_error_eq_none hnone
  rw [he, ParseTree.terminals_events] at hw
  rw [he', ParseTree.terminals_events] at hg
  have hreads' : Reads (TokenQueue.ofList w) 0 u.yield :=
    TokenQueue.reads_ofList (hg ▸ List.take_prefix n w)
  have hlength := congrArg List.length (program_unique ht hu hreads hreads' ▸ hw : u.yield = w)
  rw [hg, List.length_take] at hlength
  omega

/-- A feed that begins as a program does, up to a token that is in no program, is rejected at this
token. -/
theorem failsAt_of_reads {w : List Token} {n : Nat} (h : (parse (TokenQueue.ofList w)).error = none)
    (hw : terminals (parse (TokenQueue.ofList w)).events = w) (hn : n < w.length)
    (hg : Reads g 0 (w.take n)) (hk : (get g n).kind.isTerminal = false) :
    FailsAt (parse g) (w.take n) (get g n) (∃ depth ∈ [1022, 1023, 1024],
      TextAssigned (parse (TokenQueue.ofList w)).events n depth) := by
  have hpart := error_ne_none_of_take (g := g) h hw hn
  obtain ⟨v, z, hz, hhalt, hp⟩ := exists_steps_halt (TokenQueue.ofList w)
  rw [hp] at h hw ⊢
  obtain rfl : v = .accepted := error_eq_none_iff.1 h
  have hlen : (w.take n).length = n := List.length_take_of_le hn.le
  have agree : ∀ i < n, (get g i).kind = (get (TokenQueue.ofList w) i).kind := by
    intro i hi
    rw [get_eq_of_reads (TokenQueue.reads_ofList (List.take_prefix n w)) hg (hlen.symm ▸ hi)]
  have hi : n ≤ z.pos := hn.le.trans_eq (congrArg List.length hw).symm
  obtain ⟨v', e, he, hv, hq⟩ := exists_steps_halt g
  obtain ⟨a, a', -, -, hpos, ha', alike, hlook, -, hkept⟩ :=
    exists_steps_to_fault (by decide) hz hi agree hk he hv
  -- at the place of the fault the first `n` tokens have been accepted
  have hbefore : a'.accepted = w.take n :=
    eq_of_reads (on_of_steps ha' (on_opened g)).accepted hg
      (alike.pos.trans (hpos.trans hlen.symm))
  have haccepted : terminals (parse g).events = w.take n := by
    rw [hq]
    exact hkept.accepted.trans hbefore
  have herror := hpart haccepted
  have hfound : e.lookahead = get g n := hkept.lookahead.trans hlook
  rw [hq] at herror haccepted ⊢
  cases v' with
  | accepted => exact absurd rfl herror
  | rejected fault =>
    refine ⟨haccepted, _, rfl, congrArg Token.kind hfound, congrArg Token.line hfound, ?_⟩
    exact report_of_fault hz hhalt hi agree hk he hv

/-- **Faults are caught where they are.** Take a list of tokens that is accepted as a whole. Cut off
before any of them, or continued there with white space, a comment, an error or an end of file and
then anything, it is accepted up to that place, unchanged, and the error is about the end of the
input, on the line of the last token, or about that token. What is reported is what a rule expects,
unless the accepted list has a text at that place, assigned directly by an assignment at a depth of
1022 to 1024: there, and only there, it is that rules nest too deep. -/
theorem caught_where_it_is {w : List Token} {n : Nat}
    (h : (parse (TokenQueue.ofList w)).error = none)
    (hw : terminals (parse (TokenQueue.ofList w)).events = w) (hn : n < w.length) :
    let before := w.take n
    let tooDeep := ∃ depth ∈ [1022, 1023, 1024],
      TextAssigned (parse (TokenQueue.ofList w)).events n depth
    FailsAt (parse (TokenQueue.ofList before)) before (.eof (endLine before)) tooDeep ∧
      ∀ t rest, t.kind ∈ [.whitespace, .lineComment, .error, .eof] →
        FailsAt (parse (TokenQueue.ofList (before ++ t :: rest))) before t tooDeep := by
  intro before tooDeep
  have hlen : before.length = n := List.length_take_of_le hn.le
  refine ⟨?_, fun t rest ht => ?_⟩
  · have hget : get (TokenQueue.ofList before) n = .eof (endLine before) := by
      rw [TokenQueue.handsOut_ofList before n, List.getD_eq_getElem?_getD,
        List.getElem?_eq_none hlen.le, Option.getD_none]
    rw [← hget]
    exact failsAt_of_reads h hw hn (TokenQueue.reads_ofList List.prefix_rfl) (by rw [hget]; rfl)
  · have hget : get (TokenQueue.ofList (before ++ t :: rest)) n = t := by
      rw [TokenQueue.handsOut_ofList _ n, List.getD_eq_getElem?_getD, ← hlen,
        List.getElem?_append_right (Nat.le_refl _), Nat.sub_self]
      rfl
    have hk : t.kind.isTerminal = false := by
      simp only [List.mem_cons, List.not_mem_nil, or_false] at ht
      rcases ht with ht | ht | ht | ht <;> rw [ht] <;> rfl
    have hfails := failsAt_of_reads h hw hn
      (TokenQueue.reads_ofList (List.prefix_append before (t :: rest))) (hget.symm ▸ hk)
    rwa [hget] at hfails

/-- `begin x := "a" end`, cut off or spoilt where the text is. -/
theorem caught_where_it_is_text :
    let w : List Token := [⟨.kwBegin, 1, none⟩, ⟨.ident, 2, some "x"⟩, ⟨.assign, 2, none⟩,
      ⟨.string, 3, some "\"a\""⟩, ⟨.kwEnd, 4, none⟩]
    let n := 3
    let before := w.take n
    let tooDeep := ∃ depth ∈ [1022, 1023, 1024],
      TextAssigned (parse (TokenQueue.ofList w)).events n depth
    ((parse (TokenQueue.ofList w)).error = none ∧
        terminals (parse (TokenQueue.ofList w)).events = w ∧ n < w.length) ∧
      FailsAt (parse (TokenQueue.ofList before)) before (.eof (endLine before)) tooDeep ∧
        ∀ t rest, t.kind ∈ [.whitespace, .lineComment, .error, .eof] →
          FailsAt (parse (TokenQueue.ofList (before ++ t :: rest))) before t tooDeep := by
  intro w n before tooDeep
  have h : (parse (TokenQueue.ofList w)).error = none := by
    rw [parse_eq_of_runFor (n := 20) rfl]
    rfl
  have hw : terminals (parse (TokenQueue.ofList w)).events = w := by
    rw [parse_eq_of_runFor (n := 20) rfl]
    rfl
  have hn : n < w.length := by decide
  exact ⟨⟨h, hw, hn⟩, caught_where_it_is h hw hn⟩

end Parser
end StatementLang
