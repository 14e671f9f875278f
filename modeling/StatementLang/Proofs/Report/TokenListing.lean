import StatementLang.Listing
import StatementLang.Proofs.Report.EventDump
/-!
# Reading token listings

The columns of a listing are padded and not delimited, but they can be told apart: the line number
ends at the first space, wherever that stands, the name of the kind fills its column, and all that
follows up to the line feed is the text. So each line tells its token (`listingLine_inj`), and the
listing tells the tokens of the source text (`listing_tells_tokens`), whatever these contain.
-/
namespace StatementLang

open Lexical

/-! ## Columns -/

theorem toList_padRight (width : Nat) (s : String) :
    (padRight width s).toList = s.toList ++ List.replicate (width - s.length) ' ' := by
  rw [padRight, String.toList_append, String.toList_ofList]

/-- A column that holds no space ends at its first one, even if it has outgrown its width. -/
theorem padRight_append_inj {width : Nat} {s t : String} {u v : List Char} (hs : ' ' ∉ s.toList)
    (ht : ' ' ∉ t.toList)
    (h : (padRight width s).toList ++ ' ' :: u = (padRight width t).toList ++ ' ' :: v) :
    s = t ∧ u = v := by
  have hpad (w : Nat) (l : List Char) :
      List.replicate w ' ' ++ ' ' :: l = ' ' :: (List.replicate w ' ' ++ l) := by
    rw [← List.singleton_append, ← List.append_assoc, ← List.replicate_succ', List.replicate_succ,
      List.cons_append]
  rw [toList_padRight, toList_padRight, List.append_assoc, List.append_assoc, hpad, hpad] at h
  obtain ⟨hst, hrest⟩ := Text.append_stop_inj hs ht h
  obtain rfl : s = t := String.toList_inj.1 hst
  exact ⟨rfl, List.append_cancel_left hrest⟩

theorem length_padRight {width : Nat} {s : String} (h : s.length ≤ width) :
    (padRight width s).toList.length = width := by
  rw [toList_padRight, List.length_append, List.length_replicate, String.length_toList]
  omega

theorem prefix_of_append_spaces {s t : List Char} {m n : Nat} (ht : t.getLast? ≠ some ' ')
    (h : s ++ List.replicate m ' ' = t ++ List.replicate n ' ') : t <+: s := by
  rcases List.append_eq_append_iff.1 h with ⟨r, rfl, hr⟩ | ⟨r, rfl, -⟩
  · -- what `t` has behind `s` would be spaces
    rcases List.eq_nil_or_concat r with rfl | ⟨r, c, rfl⟩
    · rw [List.append_nil]
    · have hc : c ∈ List.replicate m ' ' := by simp [hr]
      rw [List.eq_of_mem_replicate hc] at ht
      simp at ht
  · exact List.prefix_append t r

/-- A column can be read back where no text ends with a space. -/
theorem padRight_inj {width : Nat} {s t : String} (hs : s.toList.getLast? ≠ some ' ')
    (ht : t.toList.getLast? ≠ some ' ')
    (h : (padRight width s).toList = (padRight width t).toList) : s = t := by
  rw [toList_padRight, toList_padRight] at h
  have hst := prefix_of_append_spaces hs h.symm
  have hts := prefix_of_append_spaces ht h
  exact String.toList_inj.1 (hst.eq_of_length (Nat.le_antisymm hst.length_le hts.length_le))

namespace TokenKind

/-- All names fit their column. -/
theorem length_padRight_name (k : TokenKind) : (padRight 16 k.name).toList.length = 16 := by
  have key : ∀ k ∈ all, k.name.length ≤ 16 := by decide
  exact length_padRight (key k k.mem_all)

theorem padRight_name_injective {k l : TokenKind}
    (h : (padRight 16 k.name).toList = (padRight 16 l.name).toList) : k = l := by
  have key : ∀ k ∈ all, k.name.toList.getLast? ≠ some ' ' := by decide
  exact name_injective (padRight_inj (key k k.mem_all) (key l l.mem_all) h)

end TokenKind

/-! ## Lines -/

namespace Token

variable {t u : Token}

theorem eq_of_text_eq (ht : t.WellFormed) (hu : u.WellFormed) (hkind : t.kind = u.kind)
    (hline : t.line = u.line) (htext : t.text = u.text) : t = u := by
  obtain ⟨k, n, x⟩ := t
  obtain ⟨l, m, y⟩ := u
  obtain rfl : k = l := hkind
  obtain rfl : n = m := hline
  have hsome : x.isSome = y.isSome := ht.trans hu.symm
  cases x <;> cases y <;> simp_all [text]

theorem toList_listingLine (t : Token) :
    t.listingLine.toList = (padRight 5 (toString t.line.toNat)).toList ++
      ' ' :: ((padRight 16 t.kind.name).toList ++ ' ' :: (t.text.toList ++ ['\n'])) := by
  simp [listingLine]

/-- A line of a listing tells its token. -/
theorem listingLine_inj (ht : t.WellFormed) (hu : u.WellFormed)
    (h : t.listingLine = u.listingLine) : t = u := by
  have hlist := congrArg String.toList h
  rw [toList_listingLine, toList_listingLine] at hlist
  have hdigits (n : Nat) : ' ' ∉ (toString n).toList := Text.not_mem_toString (by decide) n
  obtain ⟨hline, hrest⟩ := padRight_append_inj (hdigits _) (hdigits _) hlist
  obtain ⟨hname, htext⟩ := List.append_inj hrest
    ((TokenKind.length_padRight_name _).trans (TokenKind.length_padRight_name _).symm)
  have htext : t.text.toList = u.text.toList := List.append_cancel_right (List.cons.inj htext).2
  exact eq_of_text_eq ht hu (TokenKind.padRight_name_injective hname)
    (UInt32.toNat_inj.1 (Text.toString_inj (congrArg String.toList hline)))
    (String.toList_inj.1 htext)

end Token

/-- No token of a source text breaks its line. -/
theorem Lexer.lineFeed_not_mem_text {l : Lexer} {t : Token} (h : t ∈ l.tokens.1) :
    '\n' ∉ t.text.toList := by
  have hdisplay := lineFeed_not_mem_display h
  obtain ⟨k, n, x⟩ := t
  cases x with
  | none => exact hdisplay
  | some s =>
    intro hmem
    refine hdisplay ?_
    rw [Token.display, String.toList_append]
    exact List.mem_append_right _ hmem

theorem isLine_listingLine {source : String} {t : Token} (h : t ∈ lex source) :
    Text.IsLine t.listingLine := by
  refine ⟨_, rfl, ?_⟩
  have hpad {w : Nat} {s : String} (hs : '\n' ∉ s.toList) : '\n' ∉ (padRight w s).toList := by
    rw [toList_padRight, List.mem_append, not_or]
    exact ⟨hs, fun hmem => absurd (List.eq_of_mem_replicate hmem) (by decide)⟩
  have hdigits : '\n' ∉ (toString t.line.toNat).toList := Text.not_mem_toString (by decide) _
  have hname : '\n' ∉ t.kind.name.toList := lineFeed_not_mem_name _
  have htext : '\n' ∉ t.text.toList := Lexer.lineFeed_not_mem_text h
  simp only [String.toList_append, List.mem_append, not_or]
  exact ⟨⟨⟨⟨hpad hdigits, by decide⟩, hpad hname⟩, by decide⟩, htext⟩

/-- **A token listing tells the tokens.** It has one line for each token of the source text, in
order. Two source texts have the same listing if and only if they have the same tokens, with their
kinds, lines and texts. -/
theorem listing_tells_tokens (a b : String) :
    Text.HasLines (listing a) ((lex a).map Token.listingLine) ∧
      (listing a = listing b ↔ lex a = lex b) := by
  have hlines (source : String) :
      Text.HasLines (listing source) ((lex source).map Token.listingLine) := by
    refine Text.hasLines_join fun l hl => ?_
    obtain ⟨t, ht, rfl⟩ := List.mem_map.1 hl
    exact isLine_listingLine ht
  refine ⟨hlines a, fun h => ?_, fun h => by rw [listing, listing, h]⟩
  have hmap : (lex a).map Token.listingLine = (lex b).map Token.listingLine :=
    (hlines a).unique (h ▸ hlines b)
  have hsame := Transcript.map_eq_of_map_eq (g := id)
    (fun t ht u hu => Token.listingLine_inj (Lexer.wellFormed_of_mem_tokens ht)
      (Lexer.wellFormed_of_mem_tokens hu)) hmap
  rwa [List.map_id, List.map_id] at hsame

end StatementLang
