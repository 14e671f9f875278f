import StatementLang.Text.Quoted
/-!
# Reading numbers

The digits of a number, decimal or hexadecimal, can be read back, and nothing but digits stands
among them. So a number ends where something else begins.
-/
namespace StatementLang.Text

/-! ## Decimal digits -/

theorem isDigit_of_mem_toString {n : Nat} {c : Char} (h : c ∈ (toString n).toList) :
    c.isDigit := by
  have hdigit : c ∈ Nat.toDigits 10 n := Nat.toList_repr ▸ h
  exact Nat.isDigit_of_mem_toDigits (by decide) (by decide) hdigit

theorem not_mem_toString {c : Char} (hc : c.isDigit = false) (n : Nat) :
    c ∉ (toString n).toList := by
  intro h
  rw [isDigit_of_mem_toString h] at hc
  cases hc

theorem ofDigitChars_toString (n : Nat) : Nat.ofDigitChars 10 (toString n).toList 0 = n := by
  have hlist : (toString n).toList = Nat.toDigits 10 n := Nat.toList_repr
  rw [hlist, Nat.ofDigitChars_ten_toDigits]

theorem toString_inj {m n : Nat} (h : (toString m).toList = (toString n).toList) : m = n := by
  rw [← ofDigitChars_toString m, h, ofDigitChars_toString]

/-! ## Hexadecimal digits -/

/-- The value of a lower-case hexadecimal digit. -/
def hexDigit (c : Char) : Nat := if c.isDigit then c.toNat - '0'.toNat else c.toNat - 'a'.toNat + 10

/-- The number that some hexadecimal digits write. -/
def ofHex (s : List Char) : Nat := s.foldl (fun n c => 16 * n + hexDigit c) 0

theorem hexDigit_digitChar {n : Nat} (h : n < 16) : hexDigit n.digitChar = n := by
  have key : ∀ n < 16, hexDigit n.digitChar = n := by decide
  exact key n h

theorem ofHex_concat (s : List Char) (c : Char) : ofHex (s ++ [c]) = 16 * ofHex s + hexDigit c := by
  rw [ofHex, List.foldl_append]
  rfl

theorem hex_of_lt {n : Nat} (h : n < 16) : hex n = [n.digitChar] :=
  Nat.toDigits_of_lt_base h

theorem hex_of_le {n : Nat} (h : 16 ≤ n) : hex n = hex (n / 16) ++ [(n % 16).digitChar] := by
  rw [hex, Nat.toDigits_eq_if (by decide), if_neg (Nat.not_lt.2 h)]
  rfl

theorem ofHex_hex (n : Nat) : ofHex (hex n) = n := by
  induction n using Nat.strongRecOn with
  | _ n ih =>
    rcases Nat.lt_or_ge n 16 with hlt | hle
    · rw [hex_of_lt hlt]
      exact (Nat.zero_add _).trans (hexDigit_digitChar hlt)
    · have hlast : n % 16 < 16 := Nat.mod_lt n (by decide)
      rw [hex_of_le hle, ofHex_concat, hexDigit_digitChar hlast, ih (n / 16) (by omega),
        Nat.div_add_mod]

/-- A character other than those that write digits stands in no hexadecimal number. -/
theorem not_mem_hex {c : Char} (hc : ∀ m < 16, c ≠ m.digitChar) (n : Nat) : c ∉ hex n := by
  induction n using Nat.strongRecOn with
  | _ n ih =>
    rcases Nat.lt_or_ge n 16 with hlt | hle
    · rw [hex_of_lt hlt, List.mem_singleton]
      exact hc n hlt
    · rw [hex_of_le hle, List.mem_append, List.mem_singleton, not_or]
      exact ⟨ih (n / 16) (by omega), hc _ (Nat.mod_lt n (by decide))⟩

end StatementLang.Text
