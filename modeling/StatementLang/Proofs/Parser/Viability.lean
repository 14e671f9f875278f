import StatementLang.Proofs.Parser.Completeness
import StatementLang.Proofs.Parser.Locality
/-!
# Errors are found at once

Tokens are viable if they can be completed to a program. What a parse accepts always is, and unless
the limit ends it, a parse accepts as many tokens as are viable (`accepted_is_longest_viable`). If
more of them were, a program would begin with them; the parser without a limit would read that
program to its end, but it would go alike up to the token that does not fit, and stop there.
-/
namespace StatementLang

/-- The kinds of the tokens begin those of some program, however deep it nests. -/
def Viable (ts : List Token) : Prop :=
  ∃ t, IsProgram t ∧ ts.map Token.kind <+: t.yield.map Token.kind

theorem viable_of_prefix {t : ParseTree} (ht : IsProgram t) {w : List Token} (h : w <+: t.yield) :
    Viable w := ⟨t, ht, h.map Token.kind⟩

/-- Viable tokens themselves begin a program. -/
theorem Viable.exists_program {w : List Token} (h : Viable w) :
    ∃ u, IsProgram u ∧ w <+: u.yield := by
  obtain ⟨t, ht, ks, hks⟩ := h
  obtain ⟨u, rest, hy, hu, rfl⟩ := List.map_eq_append_iff.1 hks.symm
  have hkinds : (w ++ rest).map Token.kind = t.yield.map Token.kind := by
    rw [hy, List.map_append, List.map_append, hu]
  obtain ⟨p, hp, hyield, -⟩ := ParseTree.exists_program_of_kinds ht hkinds
  exact ⟨p, hp, hyield ▸ List.prefix_append w rest⟩

namespace Parser

open ParseTree TokenFeed

variable {ts : List Token} {s : State TokenQueue} {v : Verdict}

/-- What a parse of a list has accepted is a viable prefix of the list. -/
theorem accepted_viable {limit : Option Nat} (h1 : Within limit 1)
    (h : Steps limit (opened (TokenQueue.ofList ts)) s) :
    s.accepted <+: ts ∧ Viable s.accepted := by
  obtain ⟨p, hp, hpre⟩ := exists_program_of_growing (growing_of_steps h1 h)
  have haccepted := accepted_prefix_of_steps h1 (TokenQueue.handsOut_ofList ts) rfl h
  exact ⟨haccepted, viable_of_prefix hp hpre⟩

/-- A parse that a limit did not end has accepted all that is viable. -/
theorem length_le_of_viable {limit : Option Nat}
    (hsteps : Steps limit (opened (TokenQueue.ofList ts)) s) (hhalt : Halt limit s v)
    (hv : ∀ n, v ≠ .rejected (.tooDeep n)) {w : List Token} (hw : w <+: ts) (viable : Viable w) :
    w.length ≤ s.pos := by
  obtain ⟨u, hu, hwu⟩ := viable.exists_program
  -- The parse of `u` goes through `u` to its end.
  obtain ⟨e, hstepsᵤ, hhaltᵤ, hes⟩ := steps_of_program (f := TokenQueue.ofList u.yield) hu
    (TokenQueue.reads_of_prefix List.prefix_rfl) (within_none _)
  have hpos : e.pos = u.yield.length := by
    rw [State.pos, State.accepted, hes, terminals_events]
  -- If the parse of `ts` ended before the end of `w`, that of `u` would end at the same place.
  apply Nat.le_of_not_lt
  intro hlt
  have agree : ∀ i ≤ s.pos, (get (TokenQueue.ofList u.yield) i).kind =
      (get (TokenQueue.ofList ts) i).kind := by
    intro i hi
    have hiw : i < w.length := Nat.lt_of_le_of_lt hi hlt
    rw [get_eq_of_reads (TokenQueue.reads_ofList hw) (TokenQueue.reads_ofList hwu) hiw]
  obtain ⟨s', hsteps', hhalt', alike⟩ :=
    halts_of_alike (steps_without_limit hsteps) (halt_without_limit hhalt hv) agree
  obtain ⟨-, rfl⟩ := halt_unique hsteps' hhalt' hstepsᵤ hhaltᵤ
  have hle : w.length ≤ u.yield.length := hwu.length_le
  rw [alike.pos] at hpos
  omega

/-- No rule is said to expect what the limit is said to allow. -/
theorem expected_tooDeep_ne (r : Rule) : (ParseFault.tooDeep maxDepth).expected ≠ r.expected := by
  cases r <;> decide

/-- **Earliest error detection.** Unless the limit ends it, a parse accepts the longest prefix of
its tokens that can be completed to a program, however deep that nests. So what was accepted can be
completed, and with the token behind it, it cannot. -/
theorem accepted_is_longest_viable {ts : List Token}
    (h : ∀ e, (parse (TokenQueue.ofList ts)).error = some e → ∃ r : Rule, e.expected = r.expected) :
    let accepted := Event.terminals (parse (TokenQueue.ofList ts)).events
    (accepted <+: ts ∧ Viable accepted) ∧
      (∀ w, w <+: ts → Viable w → w.length ≤ accepted.length) ∧
      ∀ t rest, ts = accepted ++ t :: rest → ¬ Viable (accepted ++ [t]) := by
  intro accepted
  obtain ⟨v, s, hsteps, hhalt, hp⟩ := exists_steps_halt (TokenQueue.ofList ts)
  have hs : accepted = s.accepted := by
    simp only [accepted, hp]
    rfl
  have hv : ∀ n, v ≠ .rejected (.tooDeep n) := by
    rintro n rfl
    have hn : n = maxDepth := by
      cases hhalt with
      | tooDeep bound => exact (Option.some.inj bound).symm
    obtain ⟨r, hr⟩ := h _ (by rw [hp]; rfl)
    exact expected_tooDeep_ne r (hn ▸ hr)
  have hlongest : ∀ w, w <+: ts → Viable w → w.length ≤ accepted.length := fun w hw viable =>
    hs ▸ length_le_of_viable hsteps hhalt hv hw viable
  obtain ⟨hpre, hviable⟩ := accepted_viable (within_some.2 (by decide)) hsteps
  rw [← hs] at hpre hviable
  refine ⟨⟨hpre, hviable⟩, hlongest, fun t rest ht viable => ?_⟩
  have hw : accepted ++ [t] <+: ts := ⟨rest, by rw [ht, List.append_assoc]; rfl⟩
  have hle := hlongest _ hw viable
  rw [List.length_append, List.length_singleton] at hle
  omega

/-- At the second `begin` no statement can begin. -/
theorem accepted_is_longest_viable_begin :
    let ts : List Token := [⟨.kwBegin, 1, none⟩, ⟨.kwBegin, 2, none⟩, ⟨.kwEnd, 2, none⟩]
    let accepted := Event.terminals (parse (TokenQueue.ofList ts)).events
    (∀ e, (parse (TokenQueue.ofList ts)).error = some e → ∃ r : Rule, e.expected = r.expected) ∧
      (accepted <+: ts ∧ Viable accepted) ∧
      (∀ w, w <+: ts → Viable w → w.length ≤ accepted.length) ∧
      ∀ t rest, ts = accepted ++ t :: rest → ¬ Viable (accepted ++ [t]) := by
  intro ts accepted
  have h : ∀ e, (parse (TokenQueue.ofList ts)).error = some e →
      ∃ r : Rule, e.expected = r.expected := by
    rw [parse_eq_of_runFor (n := 20) rfl]
    rintro e he
    cases he
    exact ⟨.statement, rfl⟩
  exact ⟨h, accepted_is_longest_viable h⟩

end Parser
end StatementLang
