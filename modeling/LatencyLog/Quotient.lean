/-!
# Rounded quotients of naturals

Everything in this library that rounds, rounds an exact quotient of two naturals: a magnitude to
the binary grid, a value to two decimal places, a latency to a whole nanosecond. The three rules
are here once. Each answer is one of the two naturals next to the exact quotient, which is the only
thing most callers need to know (`floor_le_nearestEven`, `nearestEven_le_floor_succ`).
-/

namespace LatencyLog.Quotient

/-- The natural nearest to `num / den`; of two equally near ones the even one. -/
def nearestEven (num den : Nat) : Nat :=
  if 2 * (num % den) < den then num / den
  else if den < 2 * (num % den) then num / den + 1
  else num / den + num / den % 2

/-- The natural nearest to `num / den`; of two equally near ones the greater. -/
def nearestUp (num den : Nat) : Nat :=
  if 2 * (num % den) < den then num / den else num / den + 1

/-- The least natural that is not below `num / den`. -/
def ceil (num den : Nat) : Nat :=
  if num % den = 0 then num / den else num / den + 1

theorem floor_le_nearestEven (num den : Nat) : num / den ≤ nearestEven num den := by
  unfold nearestEven
  split
  · exact Nat.le_refl _
  · split <;> omega

theorem nearestEven_le_floor_succ (num den : Nat) : nearestEven num den ≤ num / den + 1 := by
  unfold nearestEven
  split
  · omega
  · split <;> omega

/-- A quotient without remainder is its own rounding. -/
theorem nearestEven_of_dvd {num den : Nat} (hden : 0 < den) (h : den ∣ num) :
    nearestEven num den = num / den := by
  have hr : num % den = 0 := Nat.mod_eq_zero_of_dvd h
  unfold nearestEven
  rw [if_pos (by omega)]

end LatencyLog.Quotient
