import StatementLang.Parser.Plan
import StatementLang.Proofs.Grammar.Trees
/-!
# Plans and productions

The plan of a rule spells exactly the right-hand sides of the rule (`spells_plan_iff`), and one
token of lookahead is enough to follow it: at every choice the kinds with which the rest of
a right-hand side can begin all pick the same way, provided the rule is not followed by a kind that
would make it go on (`foretold_plan`). Both are finite facts about `plan` and `Production`; what
they mean for parses is shown elsewhere.
-/
namespace StatementLang

/-! ## First kinds -/

/-- The kinds with which a rule can begin. -/
def Rule.first : Rule → List TokenKind
  | statementPart => [.kwBegin]
  | statementList | statement => [.ident, .kwIf, .kwWhile, .kwCall, .kwDo, .kwFor]
  | assignment | argumentList | condition => [.ident]
  | ifStatement => [.kwIf]
  | whileStatement => [.kwWhile]
  | untilStatement => [.kwDo]
  | forStatement => [.kwFor]
  | procedureCall => [.kwCall]
  | conditionalOperator => [.greater, .greaterEqual, .equal, .notEqual, .less, .lessEqual]
  | expression | term | factor => [.ident, .number, .lparen]

/-- The kinds that make a rule go on where it could have ended. -/
def Rule.more : Rule → List TokenKind
  | statementList => [.semicolon, .plus, .minus, .star, .slash]
  | statement | assignment | expression => [.plus, .minus, .star, .slash]
  | term => [.star, .slash]
  | argumentList => [.comma]
  | _ => []

theorem Rule.eof_not_mem_more (r : Rule) : TokenKind.eof ∉ r.more := by cases r <;> decide

/-- The kinds with which a symbol can begin. -/
def GrammarSymbol.first : GrammarSymbol → List TokenKind
  | token k => [k]
  | rule r => r.first

/-- The kinds with which a row of symbols can begin that is followed by `k`. -/
def GrammarSymbol.heads : List GrammarSymbol → TokenKind → List TokenKind
  | [], k => [k]
  | x :: _, _ => x.first

theorem exists_first_of_production {r : Rule} {xs : List GrammarSymbol} (h : Production r xs) :
    ∃ x ys, xs = x :: ys ∧ ∀ k ∈ x.first, k ∈ r.first := by
  cases h with
  | statement form =>
    refine ⟨_, _, rfl, ?_⟩
    simp only [List.mem_cons, List.not_mem_nil, or_false] at form
    rcases form with rfl | rfl | rfl | rfl | rfl | rfl <;> decide
  | conditionalOperator relational =>
    exact ⟨_, _, rfl, fun k hk => List.mem_singleton.1 hk ▸ relational⟩
  | operand operand =>
    refine ⟨_, _, rfl, fun k hk => ?_⟩
    rw [List.mem_singleton.1 hk]
    simp only [List.mem_cons, List.not_mem_nil, or_false] at operand
    rcases operand with rfl | rfl <;> decide
  | _ => exact ⟨_, _, rfl, by decide⟩

open GrammarSymbol

/-- A derivation tree begins with one of the first kinds of its symbol. -/
theorem ParseTree.exists_first {t : ParseTree} (h : t.Derives) :
    ∃ a w, t.yield = a :: w ∧ a.kind ∈ t.symbol.first := by
  induction h with
  | leaf a => exact ⟨a, [], rfl, List.mem_singleton_self _⟩
  | @node r cs production _ ih =>
    obtain ⟨x, ys, hxs, hfirst⟩ := exists_first_of_production production
    obtain ⟨c, ds, rfl, rfl, -⟩ := List.map_eq_cons_iff.1 hxs
    obtain ⟨a, w, hy, ha⟩ := ih c List.mem_cons_self
    refine ⟨a, w ++ yieldAll ds, ?_, hfirst _ ha⟩
    rw [yield, yieldAll, hy, List.cons_append]

namespace Parser

open Item

/-! ## What a plan spells -/

/-- `Spells is xs`: to do `is`, with some way at each choice, is to go through the symbols `xs`. -/
inductive Spells : List Item → List GrammarSymbol → Prop
  | nil : Spells [] []
  | take {ts : Terminals} {k : TokenKind} {is : List Item} {xs : List GrammarSymbol}
      (fit : k ∈ ts.kinds) (rest : Spells is xs) : Spells (.take ts :: is) (.token k :: xs)
  | call {r : Rule} {is : List Item} {xs : List GrammarSymbol} (rest : Spells is xs) :
      Spells (.call r :: is) (.rule r :: xs)
  | choose {c : Choice} {is js : List Item} {xs : List GrammarSymbol} (way : js ∈ c.ways)
      (rest : Spells (js ++ is) xs) : Spells (.choose c :: is) xs

variable {r : Rule} {c : Choice} {ts : Terminals} {is : List Item} {xs : List GrammarSymbol}
  {k : TokenKind}

@[simp] theorem spells_nil_iff : Spells [] xs ↔ xs = [] := by
  refine ⟨fun h => ?_, fun h => h ▸ .nil⟩
  cases h; rfl

@[simp] theorem spells_take_iff :
    Spells (.take ts :: is) xs ↔ ∃ k ∈ ts.kinds, ∃ ys, xs = .token k :: ys ∧ Spells is ys := by
  constructor
  · intro h
    cases h with
    | take fit rest => exact ⟨_, fit, _, rfl, rest⟩
  · rintro ⟨k, fit, ys, rfl, rest⟩
    exact .take fit rest

@[simp] theorem spells_takeOne_iff {hk : k ≠ .eof} :
    Spells (takeOne k hk :: is) xs ↔ ∃ ys, xs = .token k :: ys ∧ Spells is ys := by
  simp [takeOne]

@[simp] theorem spells_call_iff :
    Spells (.call r :: is) xs ↔ ∃ ys, xs = .rule r :: ys ∧ Spells is ys := by
  constructor
  · intro h
    cases h with
    | call rest => exact ⟨_, rfl, rest⟩
  · rintro ⟨ys, rfl, rest⟩
    exact .call rest

@[simp] theorem spells_choose_iff :
    Spells (.choose c :: is) xs ↔ ∃ js ∈ c.ways, Spells (js ++ is) xs := by
  constructor
  · intro h
    cases h with
    | choose way rest => exact ⟨_, way, rest⟩
  · rintro ⟨js, way, rest⟩
    exact .choose way rest

/-- The loop of a statement list spells any number of further statements. -/
theorem exists_more_of_spells : ∀ (n : Nat) (xs : List GrammarSymbol), xs.length ≤ n →
    Spells [.choose .moreStatements] xs →
      ∃ more, xs = (List.replicate more [token .semicolon, rule .statement]).flatten := by
  -- Each round of the loop spells two symbols and comes back to the same items.
  intro n
  induction n with
  | zero =>
    intro xs hn _
    exact ⟨0, List.length_eq_zero_iff.1 (Nat.le_zero.1 hn)⟩
  | succ n ih =>
    intro xs hn h
    simp only [spells_choose_iff, Choice.ways, List.mem_cons, List.not_mem_nil, or_false,
      exists_eq_or_imp, exists_eq_left, List.append_nil, spells_nil_iff] at h
    rcases h with rfl | h
    · exact ⟨0, rfl⟩
    · simp only [spells_takeOne_iff, spells_call_iff] at h
      obtain ⟨_, rfl, ys, rfl, h⟩ := h
      obtain ⟨more, rfl⟩ := ih ys (by simp only [List.length_cons] at hn; omega) h
      exact ⟨more + 1, by simp [List.replicate_succ]⟩

/-- What a plan spells is a right-hand side of its rule. -/
theorem production_of_spells (h : Spells (plan r) xs) : Production r xs := by
  cases r
  case statementList =>
    obtain ⟨ys, rfl, hys⟩ := spells_call_iff.1 h
    obtain ⟨more, rfl⟩ := exists_more_of_spells _ ys (Nat.le_refl _) hys
    exact .statementList more
  all_goals
    simp only [plan, Choice.ways, spells_nil_iff, spells_take_iff, spells_takeOne_iff,
      spells_call_iff, spells_choose_iff, List.mem_cons, List.not_mem_nil, or_false,
      List.append_nil, List.nil_append, List.cons_append, exists_eq_or_imp, exists_eq_left,
      exists_eq_right] at h
  case statementPart => exact h ▸ .statementPart
  case statement =>
    rcases h with rfl | rfl | rfl | rfl | rfl | rfl <;> exact .statement (by decide)
  case assignment =>
    obtain ⟨_, rfl, _, rfl, rfl | rfl⟩ := h
    · exact .assignText
    · exact .assignValue
  case ifStatement =>
    obtain ⟨_, rfl, _, rfl, _, rfl, _, rfl, rfl | rfl⟩ := h
    · exact .ifThen
    · exact .ifThenElse
  case whileStatement => exact h ▸ .whileLoop
  case untilStatement => exact h ▸ .doUntil
  case forStatement => exact h ▸ .forLoop
  case procedureCall => exact h ▸ .call
  case argumentList =>
    obtain ⟨_, rfl, rfl | rfl⟩ := h
    · exact .lastArgument
    · exact .argument
  case condition =>
    obtain ⟨_, rfl, _, rfl, rfl | rfl | rfl⟩ := h <;> exact .condition (by decide)
  case conditionalOperator =>
    obtain ⟨k, hk, rfl⟩ := h
    exact .conditionalOperator (kinds_relational ▸ hk)
  case expression =>
    obtain ⟨_, rfl, rfl | rfl | rfl⟩ := h
    · exact .lastTerm
    · exact .sum (by decide)
    · exact .sum (by decide)
  case term =>
    obtain ⟨_, rfl, rfl | rfl | rfl⟩ := h
    · exact .lastFactor
    · exact .product (by decide)
    · exact .product (by decide)
  case factor =>
    rcases h with (rfl | rfl) | rfl
    · exact .operand (by decide)
    · exact .operand (by decide)
    · exact .group

/-! ## One token of lookahead -/

/-- `Foretold k is xs`: to follow `is` through the symbols `xs`, when `k` comes behind them, each
choice can be made by the kind of the next token, and no rule is followed by a kind that would make
it go on. -/
inductive Foretold (k : TokenKind) : List Item → List GrammarSymbol → Prop
  | nil : Foretold k [] []
  | take {ts : Terminals} {a : TokenKind} {is : List Item} {xs : List GrammarSymbol}
      (fit : a ∈ ts.kinds) (rest : Foretold k is xs) : Foretold k (.take ts :: is) (.token a :: xs)
  | call {r : Rule} {is : List Item} {xs : List GrammarSymbol}
      (stop : ∀ a ∈ heads xs k, a ∉ r.more) (rest : Foretold k is xs) :
      Foretold k (.call r :: is) (.rule r :: xs)
  | choose {c : Choice} {is js : List Item} {xs : List GrammarSymbol}
      (pick : ∀ a ∈ heads xs k, c.pick a = some js) (rest : Foretold k (js ++ is) xs) :
      Foretold k (.choose c :: is) xs

theorem exists_mem_heads (xs : List GrammarSymbol) (k : TokenKind) : ∃ a, a ∈ heads xs k := by
  match xs with
  | [] => exact ⟨k, List.mem_singleton_self k⟩
  | .token a :: _ => exact ⟨a, List.mem_singleton_self a⟩
  | .rule r :: _ => exact List.exists_mem_of_ne_nil r.first (by cases r <;> decide)

theorem spells_of_foretold (h : Foretold k is xs) : Spells is xs := by
  induction h with
  | nil => exact .nil
  | take fit _ ih => exact .take fit ih
  | call _ _ ih => exact .call ih
  | @choose c is js xs pick _ ih =>
    obtain ⟨a, ha⟩ := exists_mem_heads xs k
    exact .choose (mem_ways_of_pick (pick a ha)) ih

@[simp] theorem foretold_nil_iff : Foretold k [] xs ↔ xs = [] := by
  refine ⟨fun h => ?_, fun h => h ▸ .nil⟩
  cases h; rfl

@[simp] theorem foretold_take_iff {a : TokenKind} :
    Foretold k (.take ts :: is) (.token a :: xs) ↔ a ∈ ts.kinds ∧ Foretold k is xs := by
  refine ⟨fun h => ?_, fun h => .take h.1 h.2⟩
  cases h with
  | take fit rest => exact ⟨fit, rest⟩

@[simp] theorem foretold_takeOne_iff {a b : TokenKind} {hb : b ≠ .eof} :
    Foretold k (takeOne b hb :: is) (.token a :: xs) ↔ a = b ∧ Foretold k is xs := by
  simp [takeOne]

@[simp] theorem foretold_call_iff :
    Foretold k (.call r :: is) (.rule r :: xs) ↔
      (∀ a ∈ heads xs k, a ∉ r.more) ∧ Foretold k is xs := by
  refine ⟨fun h => ?_, fun h => .call h.1 h.2⟩
  cases h with
  | call stop rest => exact ⟨stop, rest⟩

@[simp] theorem foretold_choose_iff :
    Foretold k (.choose c :: is) xs ↔
      ∃ js, (∀ a ∈ heads xs k, c.pick a = some js) ∧ Foretold k (js ++ is) xs := by
  refine ⟨fun h => ?_, fun ⟨js, pick, rest⟩ => .choose pick rest⟩
  cases h with
  | choose pick rest => exact ⟨_, pick, rest⟩

/-- Every further statement comes behind a semicolon, and `k` is none. -/
theorem foretold_moreStatements (hk : k ∉ Rule.statementList.more) (more : Nat) :
    Foretold k [.choose .moreStatements]
      (List.replicate more [token .semicolon, rule .statement]).flatten := by
  simp only [Rule.more, List.mem_cons, List.not_mem_nil, or_false, not_or] at hk
  induction more with
  | zero => simp [heads, Choice.pick, hk]
  | succ more ih =>
    refine foretold_choose_iff.2
      ⟨[takeOne .semicolon, call .statement, choose .moreStatements], ?_, ?_⟩
    · simp [List.replicate_succ, heads, GrammarSymbol.first, Choice.pick]
    · simp only [List.replicate_succ, List.flatten_cons, List.cons_append, List.nil_append,
        foretold_takeOne_iff, true_and]
      refine .call ?_ ih
      cases more <;> simp [List.replicate_succ, heads, GrammarSymbol.first, Rule.more, hk]

/-- The grammar can be parsed with one token of lookahead, and the plans do it. -/
theorem foretold_plan (h : Production r xs) (hk : k ∉ r.more) : Foretold k (plan r) xs := by
  cases h with
  | statementList more =>
    refine .call ?_ (foretold_moreStatements hk more)
    simp only [Rule.more, List.mem_cons, List.not_mem_nil, or_false, not_or] at hk
    cases more <;> simp [List.replicate_succ, heads, GrammarSymbol.first, Rule.more, hk]
  | statement form =>
    simp only [Rule.more, List.mem_cons, List.not_mem_nil, or_false, not_or] at form hk
    rcases form with rfl | rfl | rfl | rfl | rfl | rfl <;>
      simp [plan, heads, GrammarSymbol.first, Rule.first, Choice.pick, Rule.more, hk]
  | condition operand =>
    simp only [List.mem_cons, List.not_mem_nil, or_false] at operand
    rcases operand with rfl | rfl | rfl <;>
      simp [plan, heads, GrammarSymbol.first, Rule.more]
  | conditionalOperator relational => simpa [plan] using relational
  | sum sign =>
    simp only [Rule.more, List.mem_cons, List.not_mem_nil, or_false, not_or] at sign hk
    rcases sign with rfl | rfl <;>
      simp [plan, heads, GrammarSymbol.first, Choice.pick, Rule.more, hk]
  | product sign =>
    simp only [Rule.more, List.mem_cons, List.not_mem_nil, or_false, not_or] at sign hk
    rcases sign with rfl | rfl <;>
      simp [plan, heads, GrammarSymbol.first, Choice.pick, Rule.more, hk]
  | operand operand =>
    simp only [List.mem_cons, List.not_mem_nil, or_false] at operand
    rcases operand with rfl | rfl <;> simp [plan, heads, GrammarSymbol.first, Choice.pick]
  | _ =>
    simp only [Rule.more, List.mem_cons, List.not_mem_nil, or_false, not_or] at hk
    simp [plan, heads, GrammarSymbol.first, Rule.first, Choice.pick, Rule.more, hk]

/-- The plan of a rule spells its right-hand sides, and nothing else. -/
theorem spells_plan_iff : Spells (plan r) xs ↔ Production r xs :=
  ⟨production_of_spells, fun h => spells_of_foretold (foretold_plan h (Rule.eof_not_mem_more r))⟩

/-- Whatever the items are, they can be done. -/
theorem exists_spells (is : List Item) : ∃ xs, Spells is xs := by
  induction is with
  | nil => exact ⟨[], .nil⟩
  | cons i is ih =>
    obtain ⟨xs, h⟩ := ih
    cases i with
    | take ts =>
      obtain ⟨k, hk⟩ := List.exists_mem_of_ne_nil ts.kinds ts.ne_nil
      exact ⟨_, .take hk h⟩
    | call r => exact ⟨_, .call h⟩
    | choose c =>
      cases c with
      | statementForm =>
        exact ⟨_, spells_choose_iff.2 ⟨[call .assignment], by simp [Choice.ways], .call h⟩⟩
      | assignedValue =>
        exact ⟨_, spells_choose_iff.2 ⟨[call .expression], by simp [Choice.ways], .call h⟩⟩
      | factorForm =>
        have hdone : Spells (take { kinds := [.ident, .number] } :: is) (.token .ident :: xs) :=
          .take (by decide) h
        refine ⟨_, spells_choose_iff.2 ⟨[take { kinds := [.ident, .number] }], ?_, hdone⟩⟩
        simp [Choice.ways]
      | _ => exact ⟨xs, spells_choose_iff.2 ⟨[], by simp [Choice.ways], h⟩⟩

end Parser

end StatementLang
