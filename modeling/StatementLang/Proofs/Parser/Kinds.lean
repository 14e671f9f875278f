import StatementLang.Proofs.Parser.Growth
import StatementLang.Proofs.Parser.Locality
/-!
# Only kinds decide

Parses of two feeds whose tokens are of the same kinds go alike to their ends and end with one
verdict (`exists_alike_ends`). Lines and lexemes are handed on and never looked at
(`only_kinds_decide`).
-/
namespace StatementLang.Parser

open Event TokenFeed

/-- Parses of feeds of the same kinds of tokens end alike, with one verdict. -/
theorem exists_alike_ends {σ τ : Type} [TokenFeed σ] [TokenFeed τ] {f : σ} {g : τ}
    (agree : ∀ i, (get g i).kind = (get f i).kind) :
    ∃ (v : Verdict) (s : State σ) (s' : State τ),
      (Steps (some maxDepth) (opened f) s ∧ parse f = conclude (v, s)) ∧
      (Steps (some maxDepth) (opened g) s' ∧ parse g = conclude (v, s')) ∧
      Alike s s' ∧ s'.lookahead.kind = s.lookahead.kind := by
  obtain ⟨v, s, hsteps, hhalt, hp⟩ := exists_steps_halt f
  obtain ⟨s', hsteps', hhalt', alike⟩ := halts_of_alike hsteps hhalt fun i _ => agree i
  have hq : parse g = conclude (v, s') := by rw [parse_eq, run_eq_iff.2 ⟨hsteps', hhalt'⟩]
  have hkind : s'.lookahead.kind = s.lookahead.kind :=
    alike.kind (on_of_steps hsteps (on_opened f)) (on_of_steps hsteps' (on_opened g)) (agree _)
  exact ⟨v, s, s', ⟨hsteps, hp⟩, ⟨hsteps', hq⟩, alike, hkind⟩

/-- Errors of parses with one verdict are about the two lookaheads and expect the same. -/
theorem exists_fault_of_errors {σ τ : Type} {v : Verdict} {s : State σ} {s' : State τ}
    {e e' : SyntaxError} (he : (conclude (v, s)).error = some e)
    (he' : (conclude (v, s')).error = some e') :
    ∃ fault : ParseFault, e = .ofToken s.lookahead fault.expected ∧
      e' = .ofToken s'.lookahead fault.expected := by
  obtain ⟨fault, hv, rfl⟩ := exists_fault_of_error he
  obtain ⟨fault', hv', rfl⟩ := exists_fault_of_error he'
  obtain rfl : fault' = fault := Verdict.rejected.inj (hv'.symm.trans hv)
  exact ⟨fault', rfl, rfl⟩

theorem kind_get_ofList (ts : List Token) (i : Nat) :
    (get (TokenQueue.ofList ts) i).kind = (ts.map Token.kind).getD i .eof :=
  kind_get (TokenQueue.handsOut_ofList ts) i

/-- **Only kinds decide.** Take two lists of tokens with the same kinds, whatever their lines and
lexemes. Both parses succeed or both fail, they tell the same events up to what the terminals are,
the terminals of each are the first tokens of its own list, and errors expect and find the same. -/
theorem only_kinds_decide {ts us : List Token} (h : us.map Token.kind = ts.map Token.kind) :
    let p := parse (TokenQueue.ofList ts)
    let q := parse (TokenQueue.ofList us)
    (q.error = none ↔ p.error = none) ∧
      q.events.map outline = p.events.map outline ∧
      terminals p.events <+: ts ∧ terminals q.events <+: us ∧
      ∀ e e', p.error = some e → q.error = some e' →
        e'.expected = e.expected ∧ e'.found = e.found := by
  intro p q
  have agree : ∀ i, (get (TokenQueue.ofList us) i).kind = (get (TokenQueue.ofList ts) i).kind := by
    intro i
    rw [kind_get_ofList, kind_get_ofList, h]
  obtain ⟨v, s, s', ⟨hsteps, hp⟩, ⟨hsteps', hq⟩, alike, hkind⟩ := exists_alike_ends agree
  have hp : p = conclude (v, s) := hp
  have hq : q = conclude (v, s') := hq
  have hone : Within (some maxDepth) 1 := within_some.2 (by decide)
  rw [hp, hq]
  refine ⟨?_, alike.events, ?_, ?_, fun e e' he he' => ?_⟩
  · rw [error_eq_none_iff, error_eq_none_iff]
    rfl
  · exact accepted_prefix_of_steps hone (TokenQueue.handsOut_ofList ts) rfl hsteps
  · exact accepted_prefix_of_steps hone (TokenQueue.handsOut_ofList us) rfl hsteps'
  · obtain ⟨fault, rfl, rfl⟩ := exists_fault_of_errors he he'
    exact ⟨rfl, hkind⟩

/-- `begin x := 1 + ; ...` on one line, and its kinds with other lines and with no lexemes. -/
theorem only_kinds_decide_sum :
    let ts : List Token := [⟨.kwBegin, 1, none⟩, ⟨.ident, 1, some "x"⟩, ⟨.assign, 1, none⟩,
      ⟨.number, 1, some "1"⟩, ⟨.plus, 1, none⟩, ⟨.semicolon, 1, none⟩, ⟨.kwEnd, 1, none⟩]
    let us : List Token := [⟨.kwBegin, 9, some "end"⟩, ⟨.ident, 4, none⟩, ⟨.assign, 4, some "="⟩,
      ⟨.number, 3, some ""⟩, ⟨.plus, 7, none⟩, ⟨.semicolon, 0, some ";"⟩, ⟨.kwEnd, 2, none⟩]
    let p := parse (TokenQueue.ofList ts)
    let q := parse (TokenQueue.ofList us)
    us.map Token.kind = ts.map Token.kind ∧ (q.error = none ↔ p.error = none) ∧
      q.events.map outline = p.events.map outline ∧
      terminals p.events <+: ts ∧ terminals q.events <+: us ∧
      ∀ e e', p.error = some e → q.error = some e' →
        e'.expected = e.expected ∧ e'.found = e.found := by
  intro ts us p q
  have h : us.map Token.kind = ts.map Token.kind := rfl
  exact ⟨h, only_kinds_decide h⟩

end StatementLang.Parser
