import StatementLang.Proofs.Text.Numbers
/-!
# Reading quoted text

Every escape tells where it ends and which character it stands for (`readEscape_escape`), whatever
comes behind it. So different texts are quoted differently (`quoted_injective`), a character that is
escaped and a text that spells the escape included.
-/
namespace StatementLang.Text

/-! ## Escapes -/

/-- The character that the escape at the front of a text stands for, and what comes behind it. -/
def readEscape : List Char → Option (Char × List Char)
  | '\\' :: 'u' :: '\x7b' :: s =>
    some (Char.ofNat (ofHex (s.takeWhile (· != '\x7d'))), (s.dropWhile (· != '\x7d')).drop 1)
  | '\\' :: 't' :: s => some ('\t', s)
  | '\\' :: 'n' :: s => some ('\n', s)
  | '\\' :: 'r' :: s => some ('\r', s)
  | '\\' :: '0' :: s => some ('\x00', s)
  | '\\' :: c :: s => some (c, s)
  | c :: s => some (c, s)
  | [] => none

theorem readEscape_codeEscape (c : Char) (s : List Char) :
    readEscape (codeEscape c ++ s) = some (c, s) := by
  have hdigits : ∀ d ∈ hex c.toNat, (d != '\x7d') = true := by
    intro d hd
    have hclose : '\x7d' ∉ hex c.toNat := not_mem_hex (by decide) _
    exact bne_iff_ne.2 fun h => hclose (h ▸ hd)
  have hform : codeEscape c ++ s = '\\' :: 'u' :: '\x7b' :: (hex c.toNat ++ '\x7d' :: s) := by
    simp [codeEscape]
  rw [hform, readEscape, List.takeWhile_append_of_pos hdigits, List.dropWhile_append_of_pos hdigits]
  simp [ofHex_hex, Char.ofNat_toNat]

theorem readEscape_of_ne {c : Char} (h : c ≠ '\\') (s : List Char) :
    readEscape (c :: s) = some (c, s) := by
  unfold readEscape
  split <;> simp_all

theorem readEscape_escape (c : Char) (s : List Char) :
    readEscape (escape c ++ s) = some (c, s) := by
  unfold escape
  split
  · subst c; rfl
  split
  · subst c; rfl
  rename_i hbackslash
  iterate 4
    split
    · subst c; rfl
  split
  · exact readEscape_of_ne hbackslash s
  · exact readEscape_codeEscape c s

/-- Where one escape ends does not depend on what comes behind it. -/
theorem escape_append_inj {c d : Char} {s t : List Char} (h : escape c ++ s = escape d ++ t) :
    c = d ∧ s = t := by
  have hread : some (c, s) = some (d, t) := by
    rw [← readEscape_escape, ← readEscape_escape, h]
  exact Prod.mk.inj (Option.some.inj hread)

theorem escape_ne_nil (c : Char) : escape c ≠ [] := by
  intro h
  have hread := readEscape_escape c []
  rw [h] at hread
  cases hread

/-! ## Quoted texts -/

theorem flatMap_escape_inj : ∀ {s t : List Char}, s.flatMap escape = t.flatMap escape → s = t
  | [], [], _ => rfl
  | [], d :: t, h => absurd (List.append_eq_nil_iff.1 h.symm).1 (escape_ne_nil d)
  | c :: s, [], h => absurd (List.append_eq_nil_iff.1 h).1 (escape_ne_nil c)
  | c :: s, d :: t, h => by
    obtain ⟨rfl, hrest⟩ := escape_append_inj h
    rw [flatMap_escape_inj hrest]

theorem quoted_injective : Function.Injective quoted := by
  intro s t h
  have hlist := String.ofList_injective h
  have hbody : s.toList.flatMap escape = t.toList.flatMap escape :=
    List.append_cancel_right (List.cons.inj hlist).2
  exact String.toList_injective (flatMap_escape_inj hbody)

end StatementLang.Text
