import LatencyLog.Proofs.LatencyText.Reading

/-!
# Where one unit ends and the next begins

From 1000 nanoseconds on a latency is shown in the greatest of three units that is not above it, so before it
is rounded it is one unit at least and less than a thousand (`unitFor_le`, `lt_mul_unitFor`). Rounding
leaves it at one or more, but a thousand is reached: the unit has been chosen by then, and the last half
hundredth below a thousand is shown as a thousand of the smaller unit. The seconds have no greater unit that
could be taken instead.

Since what is shown grows with what is counted, all of this is known from four counts in each unit: one of
the unit, a thousand, and those on either side of the last half hundredth.
-/

namespace LatencyLog

namespace ShownLatency

/-! ## The unit -/

/-- The units above the nanosecond. -/
abbrev Coarse (unit : Nat) : Prop := unit = 1000 ∨ unit = 1000000 ∨ unit = 1000000000

theorem coarse_unitFor (n : Nat) : Coarse (unitFor n) := by
  unfold unitFor
  split
  · exact Or.inl rfl
  · split
    · exact Or.inr (Or.inl rfl)
    · exact Or.inr (Or.inr rfl)

theorem unitFor_le {n : Nat} (h : 1000 ≤ n) : unitFor n ≤ n := by
  unfold unitFor
  split
  · exact h
  · split
    · omega
    · omega

theorem lt_mul_unitFor {n : Nat} (h : n < 10 ^ 12) : n < 1000 * unitFor n := by
  unfold unitFor
  split
  · omega
  · split
    · omega
    · omega

theorem unitFor_pos (n : Nat) : 0 < unitFor n := by
  rcases coarse_unitFor n with h | h | h <;> rw [h] <;> decide

theorem mul_unitFor_le (n : Nat) : 1000 * unitFor n ≤ 2 ^ 53 := by
  rcases coarse_unitFor n with h | h | h <;> rw [h] <;> decide

theorem ofNanos_of_le {n : Nat} (h : 1000 ≤ n) : ofNanos n = inHundredths n (unitFor n) :=
  if_neg (Nat.not_lt.mpr h)

/-! ## Hundredths at the ends of a unit -/

section Ends

variable {n unit : Nat}

theorem hundred_le_hundredthsIn (hunit : 0 < unit) (hle : unit ≤ 2 ^ 53) (h : unit ≤ n) :
    100 ≤ hundredthsIn n unit := by
  have hone := hundredthsIn_mul hunit (show 1 * unit ≤ 2 ^ 53 by rwa [Nat.one_mul])
  calc 100 = hundredthsIn (1 * unit) unit := hone.symm
    _ ≤ hundredthsIn n unit := hundredthsIn_mono hunit (by rwa [Nat.one_mul])

theorem hundredthsIn_le_hundredThousand (hunit : 0 < unit) (hle : 1000 * unit ≤ 2 ^ 53)
    (h : n ≤ 1000 * unit) : hundredthsIn n unit ≤ 100000 :=
  calc hundredthsIn n unit ≤ hundredthsIn (1000 * unit) unit := hundredthsIn_mono hunit h
    _ = 100000 := hundredthsIn_mul hunit hle

/-- Up to the last half hundredth a thousand is not reached. -/
theorem hundredthsIn_lt_hundredThousand (hunit : Coarse unit)
    (h : 1000 * n < 999995 * unit) : hundredthsIn n unit < 100000 := by
  rcases hunit with rfl | rfl | rfl
  · have hlast : hundredthsIn 999994 1000 = 99999 := by decide +kernel
    have hmono : hundredthsIn n 1000 ≤ hundredthsIn 999994 1000 :=
      hundredthsIn_mono (by decide) (by omega)
    omega
  · have hlast : hundredthsIn 999994999 1000000 = 99999 := by decide +kernel
    have hmono : hundredthsIn n 1000000 ≤ hundredthsIn 999994999 1000000 :=
      hundredthsIn_mono (by decide) (by omega)
    omega
  · have hlast : hundredthsIn 999994999999 1000000000 = 99999 := by decide +kernel
    have hmono : hundredthsIn n 1000000000 ≤ hundredthsIn 999994999999 1000000000 :=
      hundredthsIn_mono (by decide) (by omega)
    omega

/-- In the last half hundredth it is. -/
theorem hundredThousand_le_hundredthsIn_seconds (h : 999995 * 1000000000 ≤ 1000 * n) :
    100000 ≤ hundredthsIn n 1000000000 := by
  have hfirst : hundredthsIn 999995000000 1000000000 = 100000 := by decide +kernel
  calc 100000 = hundredthsIn 999995000000 1000000000 := hfirst.symm
    _ ≤ hundredthsIn n 1000000000 := hundredthsIn_mono (by decide) (by omega)

end Ends

/-! ## Numbers in front of a unit -/

theorem value_inHundredths (n unit : Nat) :
    (inHundredths n unit).number.value = hundredthsIn n unit / 100 := Decimal.value_hundredths _

end ShownLatency

/-- **From 1000 nanoseconds up to 1000 seconds the number is shown in the greatest unit that is not above it,
and is 1.00 or more.** It is less than 1000.00 up to 999.995 of the unit. In seconds, which are the last
unit, it is 1000.00 from there on. -/
theorem latencyText_ladder {n : Nat} (hlow : 1000 ≤ n) (hhigh : n < 10 ^ 12) :
    ∃ s : ShownLatency, ShownLatency.read? (latencyText n) = some s ∧
      (s.unit = 1000 ∨ s.unit = 1000000 ∨ s.unit = 1000000000) ∧ s.unit ≤ n ∧ n < 1000 * s.unit ∧
      1 ≤ s.number.value ∧
      (1000 * n < 999995 * s.unit → s.number.value < 1000) ∧
      (s.unit = 1000000000 → 999995 * s.unit ≤ 1000 * n → s.number.value = 1000) := by
  have hread := ShownLatency.read?_latencyText (Nat.lt_trans hhigh (by decide))
  rw [ShownLatency.ofNanos_of_le hlow] at hread
  have hunit := ShownLatency.coarse_unitFor n
  have hpos := ShownLatency.unitFor_pos n
  have hbound := ShownLatency.mul_unitFor_le n
  have hbelow := ShownLatency.unitFor_le hlow
  have habove := ShownLatency.lt_mul_unitFor hhigh
  refine ⟨_, hread, hunit, hbelow, habove, ?_, ?_, ?_⟩
  · have hone := ShownLatency.hundred_le_hundredthsIn hpos (by omega) hbelow
    rw [ShownLatency.value_inHundredths, le_div_iff₀ (by norm_num)]
    exact_mod_cast hone
  · intro hlt
    have hthousand := ShownLatency.hundredthsIn_lt_hundredThousand hunit hlt
    rw [ShownLatency.value_inHundredths, div_lt_iff₀ (by norm_num)]
    exact_mod_cast hthousand
  · intro hseconds hge
    change ShownLatency.unitFor n = 1000000000 at hseconds
    have hle := ShownLatency.hundredthsIn_le_hundredThousand hpos hbound (Nat.le_of_lt habove)
    have hge' : 100000 ≤ ShownLatency.hundredthsIn n (ShownLatency.unitFor n) := by
      rw [hseconds]
      exact ShownLatency.hundredThousand_le_hundredthsIn_seconds (hseconds ▸ hge)
    rw [ShownLatency.value_inHundredths, Nat.le_antisymm hle hge']
    norm_num

theorem latencyText_ladder_lastHundredths :
    (1000 ≤ 999994 ∧ 999994 < 10 ^ 12 ∧ latencyText 999994 = "999.99 μs" ∧
      ∃ s, ShownLatency.read? (latencyText 999994) = some s ∧ s.unit = 1000 ∧
        1 ≤ s.number.value ∧ s.number.value < 1000) ∧
    (1000 ≤ 999995000000 ∧ 999995000000 < 10 ^ 12 ∧ latencyText 999995000000 = "1000.00 s" ∧
      ∃ s, ShownLatency.read? (latencyText 999995000000) = some s ∧ s.unit = 1000000000 ∧
        s.number.value = 1000) := by
  have hread : ShownLatency.read? (latencyText 999994) = some ⟨⟨99999, -2⟩, 1000⟩ := by decide +kernel
  have hread' : ShownLatency.read? (latencyText 999995000000) = some ⟨⟨100000, -2⟩, 1000000000⟩ := by
    decide +kernel
  obtain ⟨s, hs, _, _, _, hone, hless, _⟩ :=
    latencyText_ladder (show 1000 ≤ 999994 by decide) (by decide)
  obtain ⟨s', hs', _, _, _, _, _, hthousand⟩ :=
    latencyText_ladder (show 1000 ≤ 999995000000 by decide) (by decide)
  obtain rfl := Option.some.inj (hs.symm.trans hread)
  obtain rfl := Option.some.inj (hs'.symm.trans hread')
  exact ⟨⟨by decide, by decide, by decide +kernel, _, hs, rfl, hone, hless (by decide)⟩,
    ⟨by decide, by decide, by decide +kernel, _, hs', rfl, hthousand rfl (by decide)⟩⟩

/-- **A thousand of a unit is shown**, also where there is a greater unit: the number is rounded when its unit
has been chosen. -/
theorem latencyText_thousands :
    latencyText 999999 = "1000.00 μs" ∧ latencyText 999999999 = "1000.00 ms" ∧
    latencyText 999999999999 = "1000.00 s" ∧
    ¬ ∀ n, 1000 ≤ n → n < 10 ^ 12 → ∃ s : ShownLatency,
      ShownLatency.read? (latencyText n) = some s ∧ 1 ≤ s.number.value ∧ s.number.value < 1000 := by
  refine ⟨by decide +kernel, by decide +kernel, by decide +kernel, fun h => ?_⟩
  have hread : ShownLatency.read? (latencyText 999999) = some ⟨⟨100000, -2⟩, 1000⟩ := by decide +kernel
  obtain ⟨s, hs, _, hless⟩ := h 999999 (by decide) (by decide)
  obtain rfl := Option.some.inj (hs.symm.trans hread)
  rw [Decimal.value_hundredths] at hless
  norm_num at hless

end LatencyLog
