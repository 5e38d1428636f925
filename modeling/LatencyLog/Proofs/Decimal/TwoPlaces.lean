import LatencyLog.Decimal.Shortest
import LatencyLog.Proofs.Decimal.WholeLiterals
import Mathlib.Algebra.Order.Field.Rat
import Mathlib.Tactic.NormNum

/-!
# Numbers with two places

A number with two places is a natural number of hundredths, with a point put in. Which natural that is, is
the one thing that is rounded (`hundredths`), and the text gives it back (`unsigned?_twoPlaces`). So what a
reader sees of a number is its hundredths, and *they grow with the number* (`hundredths_mono`).

A whole number of units has no hundredths to round (`hundredths_mul_unity`).
-/

namespace LatencyLog.Decimal

open Binary64 (unity)

/-- The number that a decimal is. -/
def value (d : Decimal) : ℚ := d.digits * 10 ^ d.exponent

theorem value_whole (n : Nat) : value ⟨n, 0⟩ = n := by
  rw [value, zpow_zero, mul_one]

theorem value_hundredths (k : Nat) : value ⟨k, -2⟩ = k / 100 := by
  rw [value, div_eq_mul_inv]
  norm_num

/-! ## Hundredths -/

/-- A number of units in hundredths, rounded. -/
def hundredths (units : Nat) : Nat := Quotient.nearestEven (units * 100) unity

theorem hundredths_mono {m n : Nat} (h : m ≤ n) : hundredths m ≤ hundredths n :=
  Quotient.nearestEven_mono (Nat.mul_le_mul_right 100 h)

theorem hundredths_mul_unity (n : Nat) : hundredths (n * unity) = n * 100 := by
  rw [hundredths, Nat.mul_right_comm,
    Quotient.nearestEven_of_dvd Binary64.unity_pos (Nat.dvd_mul_left _ _),
    Nat.mul_div_cancel _ Binary64.unity_pos]

/-! ## Texts -/

/-- So many hundredths, written as a number with two places. -/
def twoPlaces (k : Nat) : List Char := Nat.toDigits 10 (k / 100) ++ '.' :: padded 2 (k % 100)

theorem fixed_finite (m : Binary64.Magnitude) :
    fixed (.finite false m) = twoPlaces (hundredths m.units) := rfl

/-- A number with two places by its parts. -/
def placesNumeral (k : Nat) : Json.Numeral where
  negative := false
  whole := Nat.toDigits 10 (k / 100)
  fraction := padded 2 (k % 100)
  exponent := none
  whole_digits := allDigits_toDigits _
  whole_head := (Json.Numeral.ofNat (k / 100)).whole_head
  fraction_digits := allDigits_padded _ _
  exponent_digits := Json.Numeral.no_exponent

theorem length_places (k : Nat) : (padded 2 (k % 100)).length = 2 :=
  length_padded (by decide) (Nat.mod_lt k (by decide))

theorem body_placesNumeral (k : Nat) : (placesNumeral k).body = twoPlaces k := by
  obtain ⟨d, ds, h⟩ : ∃ d ds, padded 2 (k % 100) = d :: ds := by
    refine List.exists_cons_of_length_pos ?_
    rw [length_places]
    decide
  show Nat.toDigits 10 (k / 100) ++ (Json.Numeral.pointed (padded 2 (k % 100)) ++ []) = _
  rw [List.append_nil, twoPlaces, h]
  rfl

/-- **A number with two places is read as its hundredths.** -/
theorem unsigned?_twoPlaces (k : Nat) : unsigned? (twoPlaces k) = some (k, -2) := by
  have hread := (placesNumeral k).unsigned?_body
  have hdigits : natOfDigits ((placesNumeral k).whole ++ (placesNumeral k).fraction) = k := by
    show natOfDigits (Nat.toDigits 10 (k / 100) ++ padded 2 (k % 100)) = k
    rw [natOfDigits_append, natOfDigits_toDigits, natOfDigits_padded, length_places]
    exact Nat.div_add_mod' k 100
  have hpower : (placesNumeral k).power - ((placesNumeral k).fraction.length : Int) = -2 := by
    show 0 - ((padded 2 (k % 100)).length : Int) = -2
    rw [length_places]
    rfl
  rwa [body_placesNumeral, hdigits, hpower] at hread

/-- A whole number is read as itself. -/
theorem unsigned?_toDigits (n : Nat) : unsigned? (Nat.toDigits 10 n) = some (n, 0) := by
  rw [unsigned?_of_allDigits Nat.toDigits_ne_nil (allDigits_toDigits n), natOfDigits_toDigits]

/-- No number has a space in it. -/
theorem space_not_mem_unsigned {cs : List Char} {parts : Nat × Int} (h : unsigned? cs = some parts) :
    ' ' ∉ cs := by
  intro hmem
  exact absurd (isBlank_of_mem_unsigned h ' ' hmem) (by decide)

end LatencyLog.Decimal
