import StatementLang.Proofs.Text.Lines
import StatementLang.Proofs.Tree.Walk
/-!
# Reading tree dumps

A dump has a row for each element of a tree: its level, and what it is. A row can be read off its
line (`line_injective`): the label of an element holds no space, so the indentation ends where the
label begins, and only a token has more than a label. The tree can be read off its rows, for the
children of a node are the rows behind it that are further in (`eq_of_rowsAll_append_eq`). So a dump
shows its tree (`dump_injective`), and as much of the events as a tree has of them
(`dump_tells_tree`).
-/
namespace StatementLang

open SyntaxTree

/-! ## Labels -/

theorem not_mem_of_letters {s : List Char} (h : s.all Char.isAlpha = true) {c : Char}
    (hc : c.isAlpha = false) : c ∉ s :=
  fun hmem => Bool.eq_false_iff.1 hc (List.all_eq_true.1 h c hmem)

namespace TokenKind

theorem label_letters (k : TokenKind) : k.label.toList.all Char.isAlpha = true := by
  cases k <;> decide

theorem label_ne_nil (k : TokenKind) : k.label.toList ≠ [] := by cases k <;> decide

end TokenKind

namespace NodeKind

theorem label_letters (k : NodeKind) : k.label.toList.all Char.isAlpha = true := by
  cases k with
  | root => decide
  | rule r => cases r <;> decide

theorem label_injective {k l : NodeKind} (h : k.label = l.label) : k = l := by
  have hroot (r : Rule) : r.label ≠ "Root" := by cases r <;> decide
  match k, l with
  | root, root => rfl
  | root, rule r => exact absurd h.symm (hroot r)
  | rule r, root => exact absurd h (hroot r)
  | rule r, rule s => rw [Rule.label_injective h]

end NodeKind

/-! ## Rows -/

/-- An element of a tree without what is below it. -/
inductive Entry where
  | node (kind : NodeKind)
  | token (kind : TokenKind) (text : String)
  deriving DecidableEq, Repr

namespace Entry

/-- What a line says about an element. -/
def text : Entry → String
  | node k => k.label
  | token k s => k.label ++ " " ++ Text.quoted s

theorem toList_text_token (k : TokenKind) (s : String) :
    (token k s).text.toList = k.label.toList ++ ' ' :: (Text.quoted s).toList := by
  simp [text]

theorem lineFeed_not_mem_text (e : Entry) : '\n' ∉ e.text.toList := by
  cases e with
  | node k => exact not_mem_of_letters k.label_letters (by decide)
  | token k s =>
    have hlabel : '\n' ∉ k.label.toList := not_mem_of_letters k.label_letters (by decide)
    simp [toList_text_token, hlabel, Text.lineFeed_not_mem_quoted]

theorem head?_text_ne (e : Entry) : e.text.toList.head? ≠ some ' ' := by
  cases e with
  | node k =>
    have hlabel : ' ' ∉ k.label.toList := not_mem_of_letters k.label_letters (by decide)
    exact fun h => hlabel (List.mem_of_head? h)
  | token k s =>
    have hlabel : ' ' ∉ k.label.toList := not_mem_of_letters k.label_letters (by decide)
    rw [toList_text_token, List.head?_append, ne_eq, Option.or_eq_some_iff]
    rintro (h | ⟨hnone, -⟩)
    · exact hlabel (List.mem_of_head? h)
    · exact k.label_ne_nil (List.head?_eq_none_iff.1 hnone)

/-- Only the line of a token has a space behind the label. -/
theorem text_node_ne_token (k : NodeKind) (l : TokenKind) (s : String) :
    (node k).text ≠ (token l s).text := by
  intro h
  have hlabel : ' ' ∉ k.label.toList := not_mem_of_letters k.label_letters (by decide)
  refine hlabel ?_
  rw [show k.label.toList = _ from (congrArg String.toList h).trans (toList_text_token l s)]
  exact List.mem_append_right _ List.mem_cons_self

theorem text_injective {e f : Entry} (h : e.text = f.text) : e = f := by
  match e, f with
  | node k, node l => rw [NodeKind.label_injective h]
  | node k, token l s => exact absurd h (text_node_ne_token k l s)
  | token k s, node l => exact absurd h.symm (text_node_ne_token l k s)
  | token k s, token l v =>
    have hlist := congrArg String.toList h
    rw [toList_text_token, toList_text_token] at hlist
    obtain ⟨hlabel, hquoted⟩ := Text.append_stop_inj
      (not_mem_of_letters k.label_letters (by decide))
      (not_mem_of_letters l.label_letters (by decide)) hlist
    rw [TokenKind.label_injective (String.toList_inj.1 hlabel),
      Text.quoted_injective (String.toList_inj.1 hquoted)]

end Entry

namespace SyntaxTree

/-- The line of a row. -/
def line (row : Nat × Entry) : String := dumpLine row.1 row.2.text

theorem isLine_line (row : Nat × Entry) : Text.IsLine (line row) :=
  Text.isLine_indented row.2.lineFeed_not_mem_text _

theorem line_injective : Function.Injective line := by
  intro row row' h
  obtain ⟨hwidth, htext⟩ := Text.indented_inj row.2.head?_text_ne row'.2.head?_text_ne h
  exact Prod.ext (Nat.eq_of_mul_eq_mul_left (by decide) hwidth) (Entry.text_injective htext)

mutual
/-- The rows of a tree that stands on `level`. -/
def rows (level : Nat) : SyntaxTree → List (Nat × Entry)
  | token k s => [(level, .token k s)]
  | node k cs => (level, .node k) :: rowsAll (level + 1) cs

/-- The rows of trees that stand side by side on `level`. -/
def rowsAll (level : Nat) : List SyntaxTree → List (Nat × Entry)
  | [] => []
  | c :: cs => rows level c ++ rowsAll level cs
end

mutual
theorem dumpLines_eq_map : ∀ (t : SyntaxTree) (level : Nat),
    dumpLines level t = (rows level t).map line
  | token k s, level => rfl
  | node k cs, level => by
    rw [dumpLines, rows, List.map_cons, dumpLinesAll_eq_map]
    rfl

theorem dumpLinesAll_eq_map : ∀ (cs : List SyntaxTree) (level : Nat),
    dumpLinesAll level cs = (rowsAll level cs).map line
  | [], level => rfl
  | c :: cs, level => by
    rw [dumpLinesAll, rowsAll, List.map_append, dumpLines_eq_map, dumpLinesAll_eq_map]
end

theorem hasLines_dump (t : SyntaxTree) : Text.HasLines t.dump ((rows 0 t).map line) := by
  rw [dump, dumpLines_eq_map]
  refine Text.hasLines_join fun l hl => ?_
  obtain ⟨row, -, rfl⟩ := List.mem_map.1 hl
  exact isLine_line row

/-! ## Trees and their rows -/

/-- No row is on `level` or further in before one is further out. -/
def EndsLevel (level : Nat) (rest : List (Nat × Entry)) : Prop :=
  ∀ row, rest.head? = some row → row.1 < level

theorem endsLevel_nil (level : Nat) : EndsLevel level [] := fun _ h => nomatch h

theorem not_endsLevel_rows (level : Nat) (t : SyntaxTree) (rest : List (Nat × Entry)) :
    ¬ EndsLevel level (rows level t ++ rest) := by
  intro h
  cases t with
  | token k s => exact Nat.lt_irrefl level (h _ rfl)
  | node k cs => exact Nat.lt_irrefl level (h _ rfl)

/-- Behind a tree comes another on the same level, or something further out. -/
theorem EndsLevel.rowsAll {level : Nat} {rest : List (Nat × Entry)} (h : EndsLevel level rest)
    (cs : List SyntaxTree) : EndsLevel (level + 1) (rowsAll level cs ++ rest) := by
  intro row hrow
  match cs with
  | [] => exact Nat.lt_succ_of_lt (h row hrow)
  | .token k s :: cs => cases hrow; exact Nat.lt_succ_self level
  | .node k ds :: cs => cases hrow; exact Nat.lt_succ_self level

mutual
/-- A tree can be read off rows that begin with its own. -/
theorem eq_of_rows_append_eq : ∀ (t u : SyntaxTree) {level : Nat} {past rest : List (Nat × Entry)},
    EndsLevel (level + 1) past → EndsLevel (level + 1) rest →
    rows level t ++ past = rows level u ++ rest → t = u ∧ past = rest
  | token k s, token l v, level, past, rest, _, _, h => by
    simp only [rows, List.singleton_append, List.cons.injEq, Prod.mk.injEq, Entry.token.injEq,
      true_and] at h
    obtain ⟨⟨rfl, rfl⟩, rfl⟩ := h
    exact ⟨rfl, rfl⟩
  | token k s, node l ds, level, past, rest, _, _, h => by simp [rows] at h
  | node k cs, token l v, level, past, rest, _, _, h => by simp [rows] at h
  | node k cs, node l ds, level, past, rest, hpast, hrest, h => by
    simp only [rows, List.cons_append, List.cons.injEq, Prod.mk.injEq, Entry.node.injEq,
      true_and] at h
    obtain ⟨rfl, hrow⟩ := h
    obtain ⟨rfl, rfl⟩ := eq_of_rowsAll_append_eq cs ds hpast hrest hrow
    exact ⟨rfl, rfl⟩

/-- Trees that stand side by side end where something is further out. -/
theorem eq_of_rowsAll_append_eq : ∀ (cs ds : List SyntaxTree) {level : Nat}
    {past rest : List (Nat × Entry)}, EndsLevel level past → EndsLevel level rest →
    rowsAll level cs ++ past = rowsAll level ds ++ rest → cs = ds ∧ past = rest
  | [], [], level, past, rest, _, _, h => ⟨rfl, h⟩
  | [], d :: ds, level, past, rest, hpast, _, h => by
    rw [rowsAll, rowsAll, List.nil_append, List.append_assoc] at h
    exact absurd (h ▸ hpast) (not_endsLevel_rows level d _)
  | c :: cs, [], level, past, rest, _, hrest, h => by
    rw [rowsAll, rowsAll, List.nil_append, List.append_assoc] at h
    exact absurd (h ▸ hrest) (not_endsLevel_rows level c _)
  | c :: cs, d :: ds, level, past, rest, hpast, hrest, h => by
    rw [rowsAll, rowsAll, List.append_assoc, List.append_assoc] at h
    obtain ⟨rfl, hrow⟩ := eq_of_rows_append_eq c d (hpast.rowsAll cs) (hrest.rowsAll ds) h
    obtain ⟨rfl, rfl⟩ := eq_of_rowsAll_append_eq cs ds hpast hrest hrow
    exact ⟨rfl, rfl⟩
end

theorem dump_injective : Function.Injective dump := by
  intro t u h
  have hlines : (rows 0 t).map line = (rows 0 u).map line :=
    (hasLines_dump t).unique (h ▸ hasLines_dump u)
  have hrows : rows 0 t = rows 0 u := (List.map_inj_right fun _ _ h => line_injective h).1 hlines
  have hend : EndsLevel 1 [] := endsLevel_nil 1
  exact (eq_of_rows_append_eq t u hend hend (by rw [hrows])).1

end SyntaxTree

/-! ## Trees from events -/

theorem append_leaves (ms : List Mark) {k l k' l' : Nat} (h : k + l = k' + l') :
    ms ++ List.replicate k .leave ++ List.replicate l .leave =
      ms ++ List.replicate k' .leave ++ List.replicate l' .leave := by
  rw [List.append_assoc, List.append_assoc, List.replicate_append_replicate,
    List.replicate_append_replicate, h]

/-- Events build the same tree just when they are the same up to lines, to the rules that are said
to be finished, and to the closing of what is open at the end. -/
theorem eq_iff_marks_eq {es fs : List Event} {t u : SyntaxTree} (ht : ofEvents? es = some t)
    (hu : ofEvents? fs = some u) :
    t = u ↔ ∃ m n, es.map Event.mark ++ List.replicate m .leave =
      fs.map Event.mark ++ List.replicate n .leave := by
  obtain ⟨a, hwalkT⟩ := walk_of_ofEvents? ht
  obtain ⟨b, hwalkU⟩ := walk_of_ofEvents? hu
  constructor
  · rintro rfl
    exact ⟨a, b, (List.cons.inj (hwalkT.symm.trans hwalkU)).2⟩
  · rintro ⟨m, n, h⟩
    -- behind both walks as many leaves that the events and what closes them come to the same
    have hwalks : t.walk ++ List.replicate (m + b) .leave =
        u.walk ++ List.replicate (n + a) .leave := by
      rw [hwalkT, hwalkU, List.cons_append, List.cons_append,
        append_leaves _ (show a + (m + b) = m + (a + b) by omega),
        append_leaves _ (show b + (n + a) = n + (a + b) by omega), h]
    exact (eq_of_walk_append_eq t u _ _ hwalks).1

/-- **A dump shows its tree.** Of two lists of events that each build a tree, whatever the texts of
the tokens are, the trees have the same dump only if they are the same: in shape, kinds and texts.
They are the same if and only if the events go the same way, whatever lines they have, up to the
nodes that are closed at the end. -/
theorem dump_tells_tree {es fs : List Event} {t u : SyntaxTree} (ht : ofEvents? es = some t)
    (hu : ofEvents? fs = some u) :
    (t.dump = u.dump ↔ t = u) ∧
      (t = u ↔ ∃ m n, es.map Event.mark ++ List.replicate m .leave =
        fs.map Event.mark ++ List.replicate n .leave) :=
  ⟨⟨fun h => dump_injective h, fun h => congrArg dump h⟩, eq_iff_marks_eq ht hu⟩

/-- A mark that is escaped and a text that spells the escape, in the same place; a rule that is
finished as another, and an empty text. -/
theorem dump_tells_tree_escapes :
    let mark := "\u0301\n"
    let spelled := "\\u\x7b301\x7d\\n"
    let es : List Event := [.commence .term, .terminal ⟨.string, 1, some mark⟩, .finish .factor,
      .commence .factor, .terminal ⟨.error, 2, some ""⟩]
    let fs : List Event := [.commence .term, .terminal ⟨.string, 7, some spelled⟩, .finish .term,
      .commence .factor, .terminal ⟨.error, 1, some ""⟩, .finish .factor]
    let tree (text : String) : SyntaxTree := .node .root [
      .node (.rule .term) [.token .string text], .node (.rule .factor) [.token .error ""]]
    (ofEvents? es = some (tree mark) ∧ ofEvents? fs = some (tree spelled)) ∧
      ((tree mark).dump = (tree spelled).dump ↔ tree mark = tree spelled) ∧
      (tree mark = tree spelled ↔ ∃ m n, es.map Event.mark ++ List.replicate m .leave =
        fs.map Event.mark ++ List.replicate n .leave) := by
  intro mark spelled es fs tree
  have hes : ofEvents? es = some (tree mark) := rfl
  have hfs : ofEvents? fs = some (tree spelled) := rfl
  exact ⟨⟨hes, hfs⟩, dump_tells_tree hes hfs⟩

end StatementLang
