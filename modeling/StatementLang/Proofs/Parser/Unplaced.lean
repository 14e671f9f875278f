import StatementLang.Proofs.Parser.Kinds
/-!
# Parses up to lines

Two feeds may hand out the same tokens on different lines. Their parses go the same way, tell the
same up to the lines of the terminals and fail with the same error up to its line
(`parse_unplaced`).
-/
namespace StatementLang

/-- The token without its place in the text. -/
def Token.unplaced (t : Token) : Token := { t with line := 1 }

/-- The event without the place of its token. -/
def Event.unplaced : Event → Event
  | commence r => commence r
  | terminal t => terminal t.unplaced
  | finish r => finish r

/-- The error without its place. -/
def SyntaxError.unplaced (e : SyntaxError) : SyntaxError := { e with line := 1 }

namespace Event

theorem outline_unplaced (e : Event) : e.unplaced.outline = e.outline := by cases e <;> rfl

theorem terminals_unplaced (es : List Event) :
    terminals (es.map unplaced) = (terminals es).map Token.unplaced := by
  induction es with
  | nil => rfl
  | cons e es ih => cases e <;> simpa [terminals, unplaced] using ih

/-- An outline and the terminals up to lines are enough to tell the events up to lines. -/
theorem unplaced_eq_of_outline_eq {es fs : List Event} (ho : es.map outline = fs.map outline)
    (ht : (terminals es).map Token.unplaced = (terminals fs).map Token.unplaced) :
    es.map unplaced = fs.map unplaced := by
  refine eq_of_outline_eq ?_ (by rw [terminals_unplaced, terminals_unplaced, ht])
  rw [List.map_map, List.map_map]
  exact (List.map_congr_left fun e _ => outline_unplaced e).trans
    (ho.trans (List.map_congr_left fun e _ => (outline_unplaced e).symm))

end Event

namespace Parser

open TokenFeed

variable {σ τ : Type} [TokenFeed σ] [TokenFeed τ] {f : σ} {g : τ} {ts us : List Token}
  {m n : UInt32}

/-- Where the tokens are the same up to lines, so is all that a parse tells. -/
theorem parse_unplaced (hf : HandsOut f ts (.eof m)) (hg : HandsOut g us (.eof n))
    (h : us.map Token.unplaced = ts.map Token.unplaced) :
    (parse g).events.map Event.unplaced = (parse f).events.map Event.unplaced ∧
      (parse g).error.map SyntaxError.unplaced = (parse f).error.map SyntaxError.unplaced := by
  have hkinds : us.map Token.kind = ts.map Token.kind := by
    have hk := congrArg (List.map Token.kind) h
    rwa [List.map_map, List.map_map] at hk
  obtain ⟨v, s, s', ⟨hsteps, hp⟩, ⟨hsteps', hq⟩, alike, hkind⟩ :=
    exists_alike_ends (f := f) (g := g) fun i => by rw [kind_get hf, kind_get hg, hkinds]
  rw [hp, hq]
  constructor
  · -- both have accepted the same number of tokens
    have hone : Within (some maxDepth) 1 := within_some.2 (by decide)
    have hpre : s.accepted <+: ts := accepted_prefix_of_steps hone hf rfl hsteps
    have hpre' : s'.accepted <+: us := accepted_prefix_of_steps hone hg rfl hsteps'
    refine Event.unplaced_eq_of_outline_eq alike.events ?_
    show s'.accepted.map Token.unplaced = s.accepted.map Token.unplaced
    have hpos : s'.accepted.length = s.accepted.length := alike.pos
    rw [List.prefix_iff_eq_take.1 hpre, List.prefix_iff_eq_take.1 hpre', List.map_take,
      List.map_take, h, hpos]
  · cases v with
    | accepted => rfl
    | rejected fault =>
      show some (SyntaxError.mk 1 fault.expected s'.lookahead.kind) =
        some (SyntaxError.mk 1 fault.expected s.lookahead.kind)
      rw [hkind]

end Parser
end StatementLang
