import StatementLang.Proofs.Text.Quoted
/-!
# Lines of a text

What is printed line by line has those lines if none of them holds a line feed but the one that ends
it (`HasLines`), and then it has no others (`HasLines.unique`). How far a line is indented shows
unless the text behind the indentation begins with a space itself (`indented_inj`). Quoted text
never holds a line feed, whatever is quoted (`lineFeed_not_mem_quoted`).
-/
namespace StatementLang.Text

/-- One line with the line feed that ends it. -/
def IsLine (l : String) : Prop := ∃ body : String, l = body ++ "\n" ∧ '\n' ∉ body.toList

/-- `text` consists of `lines`, one behind the other. -/
structure HasLines (text : String) (lines : List String) : Prop where
  join : text = String.join lines
  each : ∀ l ∈ lines, IsLine l

theorem hasLines_join {lines : List String} (h : ∀ l ∈ lines, IsLine l) :
    HasLines (String.join lines) lines := ⟨rfl, h⟩

/-- Spaces at the front of a line leave it one. -/
theorem isLine_indented {text : String} (h : '\n' ∉ text.toList) (width : Nat) :
    IsLine (String.ofList (List.replicate width ' ') ++ text ++ "\n") := by
  refine ⟨_, rfl, ?_⟩
  rw [String.toList_append, String.toList_ofList, List.mem_append, not_or]
  refine ⟨fun hmem => ?_, h⟩
  exact absurd (List.eq_of_mem_replicate hmem) (by decide)

/-! ## Reading lines -/

/-- Two texts that each go up to the first `stop` agree as soon as they do with what follows. -/
theorem append_stop_inj {α : Type} {stop : α} : ∀ {u v s t : List α}, stop ∉ u → stop ∉ v →
    u ++ stop :: s = v ++ stop :: t → u = v ∧ s = t
  | [], [], s, t, _, _, h => ⟨rfl, (List.cons.inj h).2⟩
  | [], b :: v, s, t, _, hv, h => by
    obtain ⟨rfl, -⟩ := List.cons.inj h
    exact absurd List.mem_cons_self hv
  | a :: u, [], s, t, hu, _, h => by
    obtain ⟨rfl, -⟩ := List.cons.inj h
    exact absurd List.mem_cons_self hu
  | a :: u, b :: v, s, t, hu, hv, h => by
    obtain ⟨rfl, hrest⟩ := List.cons.inj h
    obtain ⟨rfl, rfl⟩ := append_stop_inj (fun hm => hu (List.mem_cons_of_mem _ hm))
      (fun hm => hv (List.mem_cons_of_mem _ hm)) hrest
    exact ⟨rfl, rfl⟩

/-- Two texts that go on from the last `stop` agree as soon as they do with what comes before. -/
theorem append_last_stop_inj {α : Type} {stop : α} {u v s t : List α} (hu : stop ∉ u)
    (hv : stop ∉ v) (h : s ++ stop :: u = t ++ stop :: v) : s = t ∧ u = v := by
  have hreverse := congrArg List.reverse h
  simp only [List.reverse_append, List.reverse_cons, List.append_assoc,
    List.singleton_append] at hreverse
  obtain ⟨huv, hst⟩ :=
    append_stop_inj (mt List.mem_reverse.1 hu) (mt List.mem_reverse.1 hv) hreverse
  exact ⟨List.reverse_inj.1 hst, List.reverse_inj.1 huv⟩

theorem IsLine.append_inj {l m s t : String} (hl : IsLine l) (hm : IsLine m)
    (h : l ++ s = m ++ t) : l = m ∧ s = t := by
  obtain ⟨u, rfl, hu⟩ := hl
  obtain ⟨v, rfl, hv⟩ := hm
  have hlist : u.toList ++ '\n' :: s.toList = v.toList ++ '\n' :: t.toList := by
    simpa using congrArg String.toList h
  obtain ⟨huv, hst⟩ := append_stop_inj hu hv hlist
  exact ⟨congrArg (· ++ "\n") (String.toList_inj.1 huv), String.toList_inj.1 hst⟩

theorem IsLine.append_ne {l : String} (hl : IsLine l) (s : String) : l ++ s ≠ "" := by
  obtain ⟨u, rfl, -⟩ := hl
  intro h
  have hlist := congrArg String.toList h
  simp at hlist

theorem join_lines_inj : ∀ {ls ms : List String}, (∀ l ∈ ls, IsLine l) → (∀ m ∈ ms, IsLine m) →
    String.join ls = String.join ms → ls = ms
  | [], [], _, _, _ => rfl
  | [], m :: ms, _, hms, h => by
    rw [String.join_cons] at h
    exact absurd h.symm ((hms m List.mem_cons_self).append_ne _)
  | l :: ls, [], hls, _, h => by
    rw [String.join_cons] at h
    exact absurd h ((hls l List.mem_cons_self).append_ne _)
  | l :: ls, m :: ms, hls, hms, h => by
    rw [String.join_cons, String.join_cons] at h
    obtain ⟨rfl, hrest⟩ :=
      (hls l List.mem_cons_self).append_inj (hms m List.mem_cons_self) h
    rw [join_lines_inj (fun l hl => hls l (List.mem_cons_of_mem _ hl))
      (fun m hm => hms m (List.mem_cons_of_mem _ hm)) hrest]

/-- A text has its lines in one way. -/
theorem HasLines.unique {text : String} {ls ms : List String} (hls : HasLines text ls)
    (hms : HasLines text ms) : ls = ms :=
  join_lines_inj hls.each hms.each (hls.join.symm.trans hms.join)

/-! ## Reading indentation -/

theorem replicate_append_inj {α : Type} {pad : α} {s t : List α} (hs : s.head? ≠ some pad)
    (ht : t.head? ≠ some pad) : ∀ {w v : Nat},
    List.replicate w pad ++ s = List.replicate v pad ++ t → w = v ∧ s = t
  | 0, 0, h => ⟨rfl, h⟩
  | 0, v + 1, h => by
    rw [List.replicate_zero, List.nil_append] at h
    exact absurd (congrArg List.head? h) hs
  | w + 1, 0, h => by
    rw [List.replicate_zero, List.nil_append] at h
    exact absurd (congrArg List.head? h.symm) ht
  | w + 1, v + 1, h => by
    rw [List.replicate_succ, List.replicate_succ, List.cons_append, List.cons_append] at h
    obtain ⟨rfl, hst⟩ := replicate_append_inj hs ht (List.cons.inj h).2
    exact ⟨rfl, hst⟩

/-- The width of an indentation can be told from a line. -/
theorem indented_inj {s t : String} (hs : s.toList.head? ≠ some ' ')
    (ht : t.toList.head? ≠ some ' ') {w v : Nat}
    (h : String.ofList (List.replicate w ' ') ++ s ++ "\n" =
      String.ofList (List.replicate v ' ') ++ t ++ "\n") : w = v ∧ s = t := by
  have hlist := congrArg String.toList h
  simp only [String.toList_append, String.toList_ofList] at hlist
  obtain ⟨hw, hst⟩ := replicate_append_inj hs ht (List.append_cancel_right hlist)
  exact ⟨hw, String.toList_inj.1 hst⟩

/-! ## Quoted text -/

theorem lineFeed_not_mem_escape (c : Char) : '\n' ∉ escape c := by
  have hhex : '\n' ∉ hex c.toNat := not_mem_hex (by decide) _
  have hcode : '\n' ∉ codeEscape c := by simp [codeEscape, hhex]
  unfold escape
  iterate 3
    split
    · decide
  split
  · decide
  rename_i hc
  iterate 2
    split
    · decide
  split
  · exact fun h => hc (List.mem_singleton.1 h).symm
  · exact hcode

theorem lineFeed_not_mem_quoted (s : String) : '\n' ∉ (quoted s).toList := by
  simp [quoted, lineFeed_not_mem_escape]

end StatementLang.Text
