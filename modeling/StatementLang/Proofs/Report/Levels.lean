import Mathlib.Data.List.Induction
import StatementLang.Proofs.Report.Formats
/-!
# Levels

The printer counts levels of its own: one more behind a rule that commences, one less for a rule
that finishes, and never below zero. Where the events are well nested this count is the number of
open rules (`levels_append`), so it is never zero where a rule finishes, and a rule finishes on the
level on which it commenced (`exists_placed`).
-/
namespace StatementLang

namespace Event

/-- What an event does to the open rules: it adds one, leaves them, or takes one off. -/
def Turns (before after : List Rule) : Event → Prop
  | commence r => after = r :: before
  | terminal _ => after = before ∧ before ≠ []
  | finish r => before = r :: after

theorem openRules_single_iff {before after : List Rule} {e : Event} :
    openRules before [e] = some after ↔ e.Turns before after := by
  cases e with
  | commence r => simp [openRules, Turns, eq_comm]
  | terminal t => cases before <;> simp [openRules, Turns, eq_comm]
  | finish r => cases before <;> simp [openRules, Turns, eq_comm]

/-- The rules around an event in the middle. -/
theorem exists_turns {past rest : List Event} {e : Event} {rs : List Rule}
    (h : openRules [] (past ++ e :: rest) = some rs) :
    ∃ before after, openRules [] past = some before ∧ e.Turns before after ∧
      openRules after rest = some rs := by
  rw [openRules_append] at h
  obtain ⟨before, hbefore, h⟩ := Option.bind_eq_some_iff.1 h
  rw [← List.singleton_append, openRules_append] at h
  obtain ⟨after, hafter, hrest⟩ := Option.bind_eq_some_iff.1 h
  exact ⟨before, after, hbefore, openRules_single_iff.1 hafter, hrest⟩

/-! ## What stands inside a rule -/

/-- Some events inside a rule: they leave it open at all times, and `inner` within it at the end. -/
structure Inside (r : Rule) (es : List Event) (inner : List Rule) : Prop where
  reads : openRules [r] es = some (inner ++ [r])
  stays : ∀ past, past <+: es → openRules [r] past ≠ some []

variable {r : Rule} {es : List Event} {inner inner' : List Rule} {e : Event}

theorem inside_nil (r : Rule) : Inside r [] [] where
  reads := rfl
  stays past hpast := by
    rw [List.prefix_nil.1 hpast, openRules]
    simp

theorem Inside.concat (h : Inside r es inner)
    (he : openRules (inner ++ [r]) [e] = some (inner' ++ [r])) : Inside r (es ++ [e]) inner' := by
  have hreads : openRules [r] (es ++ [e]) = some (inner' ++ [r]) := by
    rw [openRules_append, h.reads, Option.bind_some, he]
  refine ⟨hreads, fun past hpast => ?_⟩
  rcases List.prefix_concat_iff.1 hpast with rfl | hpast
  · rw [hreads]
    simp
  · exact h.stays past hpast

/-- A rule that is open, with `inner` within it and `after` around it, has commenced, and what was
told since then is inside it. -/
theorem exists_commence {past : List Event} {after : List Rule}
    (h : openRules [] past = some (inner ++ r :: after)) :
    ∃ opened inside, past = opened ++ .commence r :: inside ∧ openRules [] opened = some after ∧
      Inside r inside inner := by
  -- by the last event: the rule commenced there, or it was open before
  induction past using List.reverseRecOn generalizing inner with
  | nil => cases inner <;> cases h
  | append_singleton past e ih =>
    rw [openRules_append] at h
    obtain ⟨stack, hstack, he⟩ := Option.bind_eq_some_iff.1 h
    have hturns := openRules_single_iff.1 he
    cases e with
    | commence s =>
      cases inner with
      | nil =>
        obtain ⟨rfl, rfl⟩ := List.cons.inj hturns
        exact ⟨past, [], rfl, hstack, inside_nil r⟩
      | cons s' inner =>
        obtain ⟨rfl, rfl⟩ := List.cons.inj hturns
        obtain ⟨opened, inside, rfl, hopened, hinside⟩ := ih hstack
        exact ⟨opened, inside ++ [.commence s'], List.append_assoc _ _ _, hopened,
          hinside.concat rfl⟩
    | terminal t =>
      obtain ⟨rfl, -⟩ := hturns
      obtain ⟨opened, inside, rfl, hopened, hinside⟩ := ih hstack
      refine ⟨opened, inside ++ [.terminal t], List.append_assoc _ _ _, hopened,
        hinside.concat ?_⟩
      cases inner <;> rfl
    | finish s =>
      obtain rfl : stack = s :: inner ++ r :: after := hturns
      obtain ⟨opened, inside, rfl, hopened, hinside⟩ := ih hstack
      refine ⟨opened, inside ++ [.finish s], List.append_assoc _ _ _, hopened,
        hinside.concat ?_⟩
      exact if_pos rfl

end Event

/-! ## The levels of well-nested events -/

namespace Transcript

open Event

/-- The printer stands on the level of the rules that are open. -/
theorem levels_append {outer before : List Rule} {past : List Event}
    (h : openRules outer past = some before) (rest : List Event) :
    levels outer.length (past ++ rest) =
      levels outer.length past ++ levels before.length rest := by
  fun_induction openRules outer past with
  | case1 outer =>
    cases h
    rfl
  | case2 outer r past ih => exact congrArg _ (ih h)
  | case3 r outer t past ih => exact congrArg _ (ih h)
  | case4 => cases h
  | case5 outer s past ih => exact congrArg _ (ih h)
  | case6 => cases h
  | case7 => cases h

/-- The level of an event: the number of rules that are open before it, or after it if it finishes
one. -/
def level (before after : List Rule) : Event → Nat
  | .commence _ | .terminal _ => before.length
  | .finish _ => after.length

theorem levels_cons {before after : List Rule} {e : Event} (h : e.Turns before after)
    (rest : List Event) :
    levels before.length (e :: rest) =
      (level before after e, e) :: levels after.length rest := by
  cases e with
  | commence r =>
    obtain rfl : after = r :: before := h
    rfl
  | terminal t =>
    obtain ⟨rfl, -⟩ : after = before ∧ before ≠ [] := h
    rfl
  | finish r =>
    obtain rfl : before = r :: after := h
    rfl

/-- The row of an event stands where the event does. -/
theorem getElem?_levels {past rest : List Event} {e : Event} {before after : List Rule}
    (h : openRules [] past = some before) (he : e.Turns before after) :
    (levels 0 (past ++ e :: rest))[past.length]? = some (level before after e, e) := by
  have happend := levels_append h (e :: rest)
  rw [List.length_nil] at happend
  rw [happend, ← length_levels 0 past, List.getElem?_append_right (Nat.le_refl _), Nat.sub_self,
    levels_cons he]
  rfl

/-- Where an event stands: between which open rules, of which there are `n` at most, and on which
level it is printed. -/
structure Placed (n : Nat) (past : List Event) (e : Event) (rest : List Event)
    (before after : List Rule) : Prop where
  opened : openRules [] past = some before
  turns : e.Turns before after
  room : before.length ≤ n ∧ after.length ≤ n
  /-- the count of the printer is the number of open rules -/
  count : levels 0 (past ++ e :: rest) = levels 0 past ++ levels before.length (e :: rest)
  row : (levels 0 (past ++ e :: rest))[past.length]? = some (level before after e, e)
  /-- a rule finishes on the level on which it commenced -/
  paired : ∀ r, e = .finish r → ∃ opened inside, past = opened ++ .commence r :: inside ∧
    Inside r inside [] ∧
    (levels 0 (past ++ e :: rest))[opened.length]? = some (after.length, .commence r)

/-- Every event has its place. -/
theorem exists_placed {n : Nat} {es past rest : List Event} {e : Event} {rs : List Rule}
    (h : openRules [] es = some rs) (hn : NestsWithin n es) (hsplit : es = past ++ e :: rest) :
    ∃ before after, Placed n past e rest before after := by
  subst hsplit
  obtain ⟨before, after, hbefore, hturns, -⟩ := exists_turns h
  have hafter : openRules [] (past ++ [e]) = some after := by
    rw [openRules_append, hbefore]
    exact openRules_single_iff.2 hturns
  have hprefix : past ++ [e] <+: past ++ e :: rest :=
    ⟨rest, by rw [List.append_assoc, List.singleton_append]⟩
  refine ⟨before, after, hbefore, hturns,
    ⟨hn past before (List.prefix_append past _) hbefore, hn _ after hprefix hafter⟩,
    levels_append hbefore (e :: rest), getElem?_levels hbefore hturns, ?_⟩
  rintro r rfl
  obtain rfl : before = r :: after := hturns
  have hopen : openRules [] past = some ([] ++ r :: after) := hbefore
  obtain ⟨opened, inside, rfl, hopened, hinside⟩ := exists_commence hopen
  have hrow : (levels 0 (opened ++ .commence r :: (inside ++ .finish r :: rest)))[opened.length]? =
      some (after.length, .commence r) := getElem?_levels (e := .commence r) hopened rfl
  refine ⟨opened, inside, rfl, hinside, ?_⟩
  rw [List.append_assoc, List.cons_append, hrow]

end Transcript
end StatementLang
