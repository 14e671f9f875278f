import StatementLang.Proofs.Parser.Nesting
import StatementLang.Proofs.Parser.Reading
/-!
# The fastest way down

Behind `begin`, each `do` opens three rules and takes one token: a statement list, its first
statement and the loop. So rules nest fastest where nothing but `do` follows (`Descending`), and
behind 341 of them the limit is reached, right behind a terminal (`exists_deepest`).
-/
namespace StatementLang.Parser

open TokenFeed Item

variable {σ : Type} [TokenFeed σ] {f : σ} {n : Nat} {s : State σ}

/-- A statement list that is called where a `do` comes next. -/
theorem steps_do {t : Token} {feed : σ} {r : Rule} {is : List Item} {outer : List Frame}
    {past : List Event} (ht : t.kind = .kwDo) (room : outer.length + 4 ≤ maxDepth) :
    Steps (some maxDepth) ⟨t, feed, ⟨r, call .statementList :: is⟩ :: outer, past⟩
      ⟨(pull feed).1, (pull feed).2,
        ⟨.untilStatement, [call .statementList, takeOne .kwUntil, call .condition]⟩ ::
          ⟨.statement, []⟩ :: ⟨.statementList, [choose .moreStatements]⟩ :: ⟨r, is⟩ :: outer,
        .terminal t :: .commence .untilStatement :: .commence .statement ::
          .commence .statementList :: past⟩ := by
  have hpick : Choice.statementForm.pick t.kind = some [call .untilStatement] := by rw [ht]; rfl
  refine .head (.call ?_) (.head (.call ?_) (.head (.choose hpick) (.head (.call ?_)
    (.single (.take (List.mem_singleton.2 ht))))))
  · exact within_some.2 (by omega)
  · exact within_some.2 (by rw [List.length_cons]; omega)
  · exact within_some.2 (by rw [List.length_cons, List.length_cons]; omega)

/-- `begin` and `n` times `do` have been taken, and a statement list is called next. -/
structure Descending (f : σ) (n : Nat) (s : State σ) : Prop where
  on : s.On f
  pos : s.pos = n + 1
  waits : ∃ r is outer, s.frames = ⟨r, call .statementList :: is⟩ :: outer ∧ outer.length = 3 * n
  last : ∃ es t, s.events = es ++ [.terminal t]

theorem exists_descending_begin (h : (get f 0).kind = .kwBegin) :
    ∃ s, Steps (some maxDepth) (opened f) s ∧ Descending f 0 s := by
  have hm : Move (some maxDepth) (opened f) _ := .take (List.mem_singleton.2 h)
  exact ⟨_, .single hm, on_of_move _ _ (on_opened f) hm, rfl, ⟨_, _, _, rfl, rfl⟩, _, _,
    List.reverse_cons⟩

/-- One more `do` leads three rules deeper. -/
theorem Descending.exists_do (h : Descending f n s) (hdo : (get f (n + 1)).kind = .kwDo)
    (room : 3 * n + 4 ≤ maxDepth) :
    ∃ s', Steps (some maxDepth) s s' ∧ Descending f (n + 1) s' := by
  obtain ⟨on, pos, ⟨r, is, outer, hframes, hlength⟩, -⟩ := h
  obtain ⟨t, feed, frames, past⟩ := s
  obtain rfl : frames = _ := hframes
  have ht : t.kind = .kwDo := by
    have hlook : t = get f _ := on.lookahead
    rw [hlook, pos, hdo]
  have hsteps : Steps (some maxDepth) ⟨t, feed, ⟨r, call .statementList :: is⟩ :: outer, past⟩ _ :=
    steps_do ht (by omega)
  refine ⟨_, hsteps, on_of_steps hsteps on, ?_, ⟨_, _, _, rfl, ?_⟩, _, _, List.reverse_cons⟩
  · simpa [State.pos, State.accepted, State.events, Event.terminals] using pos
  · simp only [List.length_cons, hlength]
    omega

theorem exists_descending (hbegin : (get f 0).kind = .kwBegin)
    (hdo : ∀ i < n, (get f (i + 1)).kind = .kwDo) (room : 3 * n + 1 ≤ maxDepth) :
    ∃ s, Steps (some maxDepth) (opened f) s ∧ Descending f n s := by
  induction n with
  | zero => exact exists_descending_begin hbegin
  | succ n ih =>
    obtain ⟨s, hsteps, hs⟩ := ih (fun i hi => hdo i (Nat.lt_succ_of_lt hi)) (by omega)
    obtain ⟨s', hmore, hs'⟩ := hs.exists_do (hdo n (Nat.lt_succ_self n)) (by omega)
    exact ⟨s', hsteps.trans hmore, hs'⟩

/-- As many `do` as there is room for. -/
def fastest : List TokenKind := .kwBegin :: List.replicate 341 .kwDo

theorem length_fastest : fastest.length = 342 := by
  rw [fastest, List.length_cons, List.length_replicate]

/-- Behind 342 terminals the parse stops for its depth, and the last of them stands within as many
rules as may be open. -/
theorem exists_deepest (h : ∀ i < fastest.length, (get f i).kind = fastest.getD i .eof) :
    (parse f).verdict = .rejected (.tooDeep maxDepth) ∧ ∃ es t rules,
      (parse f).events = es ++ [.terminal t] ∧
      Event.openRules [] (parse f).events = some rules ∧ rules.length = maxDepth ∧
      (Event.terminals (parse f).events).length = 342 := by
  rw [length_fastest] at h
  have hbegin : (get f 0).kind = .kwBegin := h 0 (by decide)
  have hdo : ∀ i < 341, (get f (i + 1)).kind = .kwDo := by
    intro i hi
    rw [h (i + 1) (by omega), fastest, List.getD_cons_succ, List.getD_eq_getElem?_getD,
      List.getElem?_replicate_of_lt hi]
    rfl
  obtain ⟨s, hsteps, hs⟩ := exists_descending hbegin hdo (by decide)
  obtain ⟨on, pos, ⟨r, is, outer, hframes, hlength⟩, es, t, hlast⟩ := hs
  have hreads := (nested_of_steps (within_some.2 (by decide)) hsteps).reads
  obtain ⟨t', feed, frames, past⟩ := s
  obtain rfl : frames = _ := hframes
  have hhalt : Halt (some maxDepth)
      ⟨t', feed, ⟨r, call .statementList :: is⟩ :: outer, past⟩ (.rejected (.tooDeep maxDepth)) :=
    .tooDeep rfl (by rw [hlength]; decide)
  rw [parse_eq, run_eq_iff.2 ⟨hsteps, hhalt⟩]
  refine ⟨rfl, es, t, _, hlast, hreads, ?_, pos⟩
  simp only [State.openRules, List.map_cons, List.length_cons, List.length_map, hlength]
  rfl

end StatementLang.Parser
