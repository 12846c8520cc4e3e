import Mathlib.Tactic.Common

/-!
# String parameters against numeric columns

An `:id` path parameter reaches MySQL as a string, and MySQL compares a `BIGINT` column with a
string numerically. Which number it takes a text for is the database's; that it takes a decimal
numeral for the number it spells is all that is relied on.
-/

namespace SafeerApi.Common

/-- How the database reads a string it compares with an id: `rowId s` is the only id that is equal
to `s`, if one is. -/
structure SqlNumeric where
  rowId : String → Option ℕ
  canonical : ∀ n : ℕ, rowId (toString n) = some n

/-- Numerals are read as numbers, leading zeros included, and no other text is. -/
def SqlNumeric.decimal : SqlNumeric where
  rowId s :=
    if s.toList ≠ [] ∧ s.toList.all Char.isDigit then some (Nat.ofDigitChars 10 s.toList 0)
    else none
  canonical n := by
    have htext : (toString n).toList = Nat.toDigits 10 n := Nat.toList_repr
    have hdigits : (Nat.toDigits 10 n).all Char.isDigit = true := by
      rw [List.all_eq_true]
      exact fun c hc => Nat.isDigit_of_mem_toDigits (by decide) (by decide) hc
    have hvalue : Nat.ofDigitChars 10 (Nat.toDigits 10 n) 0 = n :=
      Nat.ofDigitChars_toDigits (by decide) (by decide)
    have hnil : Nat.toDigits 10 n ≠ [] := Nat.toDigits_ne_nil
    simp only [htext]
    rw [if_pos ⟨hnil, hdigits⟩, hvalue]

end SafeerApi.Common
