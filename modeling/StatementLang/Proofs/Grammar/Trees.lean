import StatementLang.Grammar
/-!
# Derivation trees

What holds of derivation trees whatever parser finds them. Their events spell them without
ambiguity (`eq_of_events_eq`), only the kinds of their tokens matter (`exists_tree_of_kinds`) and
those are never white space, comments, errors or ends of file (`isTerminal_of_derives`), every rule
has one (`hasTree`), and the grammar nests sums, products and arguments to the right and keeps
statement lists flat (`rightNested_of_derives`).
-/
namespace StatementLang

/-- The kinds of which programs are made: no white space, comment, error or end of file. -/
def TokenKind.isTerminal : TokenKind → Bool
  | .whitespace | .lineComment | .error | .eof => false
  | _ => true

/-- A rule, or a kind of which programs are made. -/
def GrammarSymbol.isProper : GrammarSymbol → Bool
  | .token k => k.isTerminal
  | .rule _ => true

namespace ParseTree

/-! ## Rows of trees -/

theorem yieldAll_append (cs ds : List ParseTree) :
    yieldAll (cs ++ ds) = yieldAll cs ++ yieldAll ds := by
  induction cs with
  | nil => rfl
  | cons c cs ih => simp [yieldAll, ih]

theorem eventsAll_append (cs ds : List ParseTree) :
    eventsAll (cs ++ ds) = eventsAll cs ++ eventsAll ds := by
  induction cs with
  | nil => rfl
  | cons c cs ih => simp [eventsAll, ih]

theorem heightAll_append (cs ds : List ParseTree) :
    heightAll (cs ++ ds) = max (heightAll cs) (heightAll ds) := by
  induction cs with
  | nil => simp [heightAll]
  | cons c cs ih => simp [heightAll, ih, Nat.max_assoc]

theorem mem_yieldAll {a : Token} {cs : List ParseTree} :
    a ∈ yieldAll cs ↔ ∃ c ∈ cs, a ∈ c.yield := by
  induction cs with
  | nil => simp [yieldAll]
  | cons c cs ih => simp [yieldAll, ih]

theorem production_of_derives {r : Rule} {cs : List ParseTree} (h : (node r cs).Derives) :
    Production r (cs.map symbol) := by
  cases h; assumption

theorem derives_of_mem {r : Rule} {cs : List ParseTree} (h : (node r cs).Derives) :
    ∀ c ∈ cs, c.Derives := by
  cases h; assumption

/-! ## Events spell trees -/

mutual
/-- No tree's events continue another's. -/
theorem eq_of_events_append_eq : ∀ (t u : ParseTree) (es fs : List Event),
    t.events ++ es = u.events ++ fs → t = u ∧ es = fs
  | leaf a, leaf b, es, fs, h => by
    simp only [events, List.cons_append, List.nil_append, List.cons.injEq, Event.terminal.injEq]
      at h
    obtain ⟨rfl, rfl⟩ := h
    exact ⟨rfl, rfl⟩
  | leaf a, node s ds, es, fs, h => by simp [events] at h
  | node r cs, leaf b, es, fs, h => by simp [events] at h
  | node r cs, node s ds, es, fs, h => by
    simp only [events, List.cons_append, List.append_assoc, List.nil_append, List.cons.injEq,
      Event.commence.injEq] at h
    obtain ⟨rfl, hrow⟩ := h
    obtain ⟨rfl, rfl⟩ := eq_of_eventsAll_append_eq cs ds r r es fs hrow
    exact ⟨rfl, rfl⟩

/-- The row ends where a rule finishes that none of its trees has commenced. -/
theorem eq_of_eventsAll_append_eq : ∀ (cs ds : List ParseTree) (r s : Rule) (es fs : List Event),
    eventsAll cs ++ .finish r :: es = eventsAll ds ++ .finish s :: fs → cs = ds ∧ es = fs
  | [], [], r, s, es, fs, h => by
    simp only [eventsAll, List.nil_append, List.cons.injEq] at h
    exact ⟨rfl, h.2⟩
  | [], leaf b :: ds, r, s, es, fs, h => by simp [eventsAll, events] at h
  | [], node q bs :: ds, r, s, es, fs, h => by simp [eventsAll, events] at h
  | leaf a :: cs, [], r, s, es, fs, h => by simp [eventsAll, events] at h
  | node q bs :: cs, [], r, s, es, fs, h => by simp [eventsAll, events] at h
  | c :: cs, d :: ds, r, s, es, fs, h => by
    simp only [eventsAll, List.append_assoc] at h
    obtain ⟨rfl, hrow⟩ := eq_of_events_append_eq c d _ _ h
    obtain ⟨rfl, rfl⟩ := eq_of_eventsAll_append_eq cs ds r s es fs hrow
    exact ⟨rfl, rfl⟩
end

/-- A tree can be read off its events. -/
theorem eq_of_events_eq {t u : ParseTree} (h : t.events = u.events) : t = u :=
  (eq_of_events_append_eq t u [] [] (by rw [h])).1

/-! ## Only kinds matter -/

mutual
/-- The tokens of a tree can be exchanged for others of the same kinds. -/
theorem exists_tree_of_kinds : ∀ (t : ParseTree) (ts : List Token),
    ts.map Token.kind = t.yield.map Token.kind →
      ∃ u : ParseTree, u.yield = ts ∧ u.symbol = t.symbol ∧ u.height = t.height ∧
        (t.Derives → u.Derives)
  | leaf a, ts, h => by
    obtain ⟨b, rfl, hb⟩ := List.map_eq_singleton_iff.1 h
    refine ⟨leaf b, rfl, ?_, rfl, fun _ => .leaf b⟩
    rw [symbol, symbol, hb]
  | node r cs, ts, h => by
    obtain ⟨ds, hy, hs, hh, hd⟩ := exists_row_of_kinds cs ts h
    refine ⟨node r ds, hy, rfl, by rw [height, height, hh], fun ht => ?_⟩
    exact .node (hs ▸ production_of_derives ht) (hd (derives_of_mem ht))

/-- The tokens of a row of trees can be exchanged for others of the same kinds. -/
theorem exists_row_of_kinds : ∀ (cs : List ParseTree) (ts : List Token),
    ts.map Token.kind = (yieldAll cs).map Token.kind →
      ∃ ds : List ParseTree, yieldAll ds = ts ∧ ds.map symbol = cs.map symbol ∧
        heightAll ds = heightAll cs ∧ ((∀ c ∈ cs, c.Derives) → ∀ d ∈ ds, d.Derives)
  | [], ts, h => by
    have hts : ts = [] := List.map_eq_nil_iff.1 h
    exact ⟨[], hts.symm, rfl, rfl, id⟩
  | c :: cs, ts, h => by
    rw [yieldAll, List.map_append] at h
    obtain ⟨us, ws, rfl, hu, hw⟩ := List.map_eq_append_iff.1 h
    obtain ⟨d, hy, hs, hh, hd⟩ := exists_tree_of_kinds c us hu
    obtain ⟨ds, hys, hss, hhs, hds⟩ := exists_row_of_kinds cs ws hw
    refine ⟨d :: ds, ?_, ?_, ?_, fun hc => ?_⟩
    · rw [yieldAll, hy, hys]
    · rw [List.map_cons, List.map_cons, hs, hss]
    · rw [heightAll, heightAll, hh, hhs]
    · obtain ⟨hc, hcs⟩ := List.forall_mem_cons.1 hc
      exact List.forall_mem_cons.2 ⟨hd hc, hds hcs⟩
end

theorem exists_program_of_kinds {t : ParseTree} (h : IsProgram t) {ts : List Token}
    (hts : ts.map Token.kind = t.yield.map Token.kind) :
    ∃ u, IsProgram u ∧ u.yield = ts ∧ u.height = t.height := by
  obtain ⟨u, hy, hs, hh, hd⟩ := exists_tree_of_kinds t ts hts
  exact ⟨u, ⟨hd h.1, hs.trans h.2⟩, hy, hh⟩

/-! ## The kinds in programs -/

open GrammarSymbol in
theorem isProper_of_production {r : Rule} {xs : List GrammarSymbol} (h : Production r xs) :
    ∀ x ∈ xs, x.isProper = true := by
  have hone (ks : List TokenKind) (hks : ∀ k ∈ ks, k.isTerminal = true) {k : TokenKind}
      (hk : k ∈ ks) : (token k).isProper = true := hks k hk
  cases h with
  | statementList more =>
    have hmore : ∀ x ∈ [token .semicolon, rule .statement], x.isProper = true := by decide
    refine List.forall_mem_cons.2 ⟨rfl, fun x hx => ?_⟩
    obtain ⟨ys, hys, hx⟩ := List.mem_flatten.1 hx
    rw [List.eq_of_mem_replicate hys] at hx
    exact hmore x hx
  | statement form => simp [isProper]
  | condition operand => simp +decide [hone _ (by decide) operand]
  | conditionalOperator relational => simp [hone _ (by decide) relational]
  | sum sign => simp +decide [hone _ (by decide) sign]
  | product sign => simp +decide [hone _ (by decide) sign]
  | operand operand => simp [hone _ (by decide) operand]
  | _ => decide

theorem isTerminal_of_derives {t : ParseTree} (h : t.Derives) (ht : t.symbol.isProper = true) :
    ∀ a ∈ t.yield, a.kind.isTerminal = true := by
  induction h with
  | leaf b =>
    intro a ha
    rw [List.mem_singleton.1 ha]
    exact ht
  | node production _ ih =>
    intro a ha
    obtain ⟨c, hc, hac⟩ := mem_yieldAll.1 ha
    exact ih c hc (isProper_of_production production _ (List.mem_map_of_mem hc)) a hac

/-! ## Every rule has a tree -/

/-- Some tree derives from the symbol. -/
def HasTree (x : GrammarSymbol) : Prop := ∃ t : ParseTree, t.Derives ∧ t.symbol = x

theorem hasTree_token (k : TokenKind) : HasTree (.token k) := ⟨leaf ⟨k, 1, none⟩, .leaf _, rfl⟩

theorem exists_row {xs : List GrammarSymbol} (h : ∀ x ∈ xs, HasTree x) :
    ∃ cs : List ParseTree, (∀ c ∈ cs, c.Derives) ∧ cs.map symbol = xs := by
  induction xs with
  | nil => exact ⟨[], by simp, rfl⟩
  | cons x xs ih =>
    obtain ⟨hx, hxs⟩ := List.forall_mem_cons.1 h
    obtain ⟨t, ht, rfl⟩ := hx
    obtain ⟨cs, hcs, rfl⟩ := ih hxs
    exact ⟨t :: cs, List.forall_mem_cons.2 ⟨ht, hcs⟩, rfl⟩

theorem hasTree_of_production {r : Rule} {xs : List GrammarSymbol} (h : Production r xs)
    (hxs : ∀ x ∈ xs, HasTree x) : HasTree (.rule r) := by
  obtain ⟨cs, hcs, rfl⟩ := exists_row hxs
  exact ⟨node r cs, .node h hcs, rfl⟩

/-- Every symbol derives some tree: the rules in an order in which each needs earlier ones only. -/
theorem hasTree (x : GrammarSymbol) : HasTree x := by
  have factor := hasTree_of_production (.operand (k := .ident) (by decide)) (by
    simp [hasTree_token])
  have term := hasTree_of_production .lastFactor (by simp [factor])
  have expression := hasTree_of_production .lastTerm (by simp [term])
  have argumentList := hasTree_of_production .lastArgument (by simp [hasTree_token])
  have conditionalOperator := hasTree_of_production
    (.conditionalOperator (k := .equal) (by decide)) (by simp [hasTree_token])
  have condition := hasTree_of_production (.condition (k := .ident) (by decide)) (by
    simp [hasTree_token, conditionalOperator])
  have assignment := hasTree_of_production .assignText (by simp [hasTree_token])
  have statement := hasTree_of_production (.statement (r := .assignment) (by decide)) (by
    simp [assignment])
  have statementList := hasTree_of_production (.statementList 0) (by simp [statement])
  cases x with
  | token k => exact hasTree_token k
  | rule r =>
    cases r with
    | statementPart =>
      exact hasTree_of_production .statementPart (by simp [hasTree_token, statementList])
    | statementList => exact statementList
    | statement => exact statement
    | assignment => exact assignment
    | ifStatement =>
      exact hasTree_of_production .ifThen (by simp [hasTree_token, condition, statementList])
    | whileStatement =>
      exact hasTree_of_production .whileLoop (by
        simp [hasTree_token, condition, statementList])
    | untilStatement =>
      exact hasTree_of_production .doUntil (by simp [hasTree_token, condition, statementList])
    | forStatement =>
      exact hasTree_of_production .forLoop (by
        simp [hasTree_token, assignment, condition, statementList])
    | procedureCall =>
      exact hasTree_of_production .call (by simp [hasTree_token, argumentList])
    | argumentList => exact argumentList
    | condition => exact condition
    | conditionalOperator => exact conditionalOperator
    | expression => exact expression
    | term => exact term
    | factor => exact factor

/-! ## The shape of programs -/

/-- `Part u t`: the tree `u` stands somewhere in `t`. -/
inductive Part (u : ParseTree) : ParseTree → Prop
  | self : Part u u
  | child {r : Rule} {cs : List ParseTree} {c : ParseTree} (hc : c ∈ cs) (h : Part u c) :
      Part u (node r cs)

theorem derives_of_part {t u : ParseTree} (ht : t.Derives) (h : Part u t) : u.Derives := by
  induction h with
  | self => exact ht
  | child hc _ ih => exact ih (derives_of_mem ht _ hc)

/-- Sums, products and argument lists go on to the right only, and in a statement list there are
just statements and the semicolons between them. -/
structure RightNested (t : ParseTree) : Prop where
  sums : ∀ a op b, Part (node .expression [a, op, b]) t →
    a.symbol = .rule .term ∧ b.symbol = .rule .expression
  products : ∀ a op b, Part (node .term [a, op, b]) t →
    a.symbol = .rule .factor ∧ b.symbol = .rule .term
  arguments : ∀ a op b, Part (node .argumentList [a, op, b]) t →
    a.symbol = .token .ident ∧ b.symbol = .rule .argumentList
  lists : ∀ cs, Part (node .statementList cs) t →
    ∃ more, cs.map symbol =
      .rule .statement :: (List.replicate more [.token .semicolon, .rule .statement]).flatten

theorem production_of_part {t : ParseTree} {r : Rule} {cs : List ParseTree} (ht : t.Derives)
    (h : Part (node r cs) t) : Production r (cs.map symbol) :=
  production_of_derives (derives_of_part ht h)

theorem ends_of_sum {x y z : GrammarSymbol} (h : Production .expression [x, y, z]) :
    x = .rule .term ∧ z = .rule .expression := by
  cases h with
  | sum sign => exact ⟨rfl, rfl⟩

theorem ends_of_product {x y z : GrammarSymbol} (h : Production .term [x, y, z]) :
    x = .rule .factor ∧ z = .rule .term := by
  cases h with
  | product sign => exact ⟨rfl, rfl⟩

theorem ends_of_argument {x y z : GrammarSymbol} (h : Production .argumentList [x, y, z]) :
    x = .token .ident ∧ z = .rule .argumentList := by
  cases h with
  | argument => exact ⟨rfl, rfl⟩

theorem rightNested_of_derives {t : ParseTree} (ht : t.Derives) : RightNested t where
  sums a op b h := ends_of_sum (production_of_part ht h)
  products a op b h := ends_of_product (production_of_part ht h)
  arguments a op b h := ends_of_argument (production_of_part ht h)
  lists cs h := by
    have hp := production_of_part ht h
    generalize cs.map symbol = xs at hp ⊢
    cases hp with
    | statementList more => exact ⟨more, rfl⟩

end ParseTree

namespace IsProgram

theorem isTerminal {t : ParseTree} (h : IsProgram t) : ∀ a ∈ t.yield, a.kind.isTerminal = true :=
  ParseTree.isTerminal_of_derives h.1 (by rw [h.2]; rfl)

/-- No token of a program is an end of file. -/
theorem kind_ne_eof {t : ParseTree} (h : IsProgram t) : ∀ a ∈ t.yield, a.kind ≠ .eof := by
  intro a ha heof
  have hterminal := h.isTerminal a ha
  rw [heof] at hterminal
  cases hterminal

/-- No token of a program is skipped. -/
theorem isTrivia_eq_false {t : ParseTree} (h : IsProgram t) :
    ∀ a ∈ t.yield, a.kind.isTrivia = false := by
  have key : ∀ k ∈ TokenKind.all, k.isTerminal = true → k.isTrivia = false := by decide
  exact fun a ha => key a.kind (TokenKind.mem_all _) (h.isTerminal a ha)

end IsProgram
end StatementLang
