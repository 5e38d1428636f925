import LatencyLog.Proofs.LatencyText.Ladder

/-!
# Latency texts are in the order of the latencies

Within one unit what is shown grows with what is counted, as each of the roundings does. What is left is
where the unit changes, and there it is enough that *neither side passes the unit*: below it no more is shown
than the unit (`nanos_le`), and from it on no less (`le_nanos`). The text just below may denote the unit
itself, as a thousand of the smaller one, and then two texts denote one latency; they are never in the wrong
order.
-/

namespace LatencyLog

namespace ShownLatency

variable {n unit : Nat}

theorem nanos_of_lt (h : n < 1000) : (ofNanos n).nanos = n := by
  rw [ofNanos, if_pos h, nanos, Decimal.value_whole, Nat.cast_one, mul_one]

theorem nanos_inHundredths (n unit : Nat) :
    (inHundredths n unit).nanos = hundredthsIn n unit / 100 * unit := by
  rw [nanos, value_inHundredths]
  rfl

/-! ## On either side of a unit -/

theorem mul_unitFor_le_of_lt (hunit : Coarse unit)
    (hn : 1000 ≤ n) (h : n < unit) : 1000 * unitFor n ≤ unit := by
  unfold unitFor
  split
  · omega
  · split
    · omega
    · omega

theorem le_unitFor (hunit : Coarse unit) (h : unit ≤ n) :
    unit ≤ unitFor n := by
  unfold unitFor
  split
  · omega
  · split
    · omega
    · omega

/-- **Below a unit no more is shown than the unit.** -/
theorem nanos_le (hunit : Coarse unit) (h : n < unit) :
    (ofNanos n).nanos ≤ unit := by
  rcases Nat.lt_or_ge n 1000 with hsmall | hlarge
  · rw [nanos_of_lt hsmall]
    exact_mod_cast Nat.le_of_lt h
  · have hnext := mul_unitFor_le_of_lt hunit hlarge h
    have hless : n < 1000 * unitFor n := lt_mul_unitFor (by omega)
    have hthousand := hundredthsIn_le_hundredThousand (unitFor_pos n) (mul_unitFor_le n)
      (Nat.le_of_lt hless)
    have hshown : (hundredthsIn n (unitFor n) : ℚ) / 100 ≤ 1000 := by
      rw [div_le_iff₀ (by norm_num)]
      exact_mod_cast hthousand
    rw [ofNanos_of_le hlarge, nanos_inHundredths]
    calc (hundredthsIn n (unitFor n) : ℚ) / 100 * unitFor n ≤ 1000 * unitFor n :=
          mul_le_mul_of_nonneg_right hshown (Nat.cast_nonneg _)
      _ ≤ unit := by exact_mod_cast hnext

/-- **From a unit on no less is shown than the unit.** -/
theorem le_nanos (hunit : Coarse unit) (h : unit ≤ n) :
    (unit : ℚ) ≤ (ofNanos n).nanos := by
  have hlarge : 1000 ≤ n := by omega
  have hbound := mul_unitFor_le n
  have hone := hundred_le_hundredthsIn (unitFor_pos n) (by omega) (unitFor_le hlarge)
  have hshown : (1 : ℚ) ≤ hundredthsIn n (unitFor n) / 100 := by
    rw [le_div_iff₀ (by norm_num)]
    exact_mod_cast hone
  rw [ofNanos_of_le hlarge, nanos_inHundredths]
  calc (unit : ℚ) ≤ unitFor n := by exact_mod_cast le_unitFor hunit h
    _ = 1 * unitFor n := (one_mul _).symm
    _ ≤ hundredthsIn n (unitFor n) / 100 * unitFor n :=
        mul_le_mul_of_nonneg_right hshown (Nat.cast_nonneg _)

/-! ## Any two latencies -/

/-- Where no unit lies between two counts, they are shown in one. -/
theorem unitFor_eq {m : Nat} (hmn : m ≤ n) (h : ∀ unit, Coarse unit →
    m < unit → n < unit) : unitFor m = unitFor n := by
  have hmicro := h 1000000 (by omega)
  have hsecond := h 1000000000 (by omega)
  rcases Nat.lt_or_ge m 1000000 with hsmall | hlarge
  · rw [unitFor, unitFor, if_pos hsmall, if_pos (hmicro hsmall)]
  · rw [unitFor, unitFor, if_neg (Nat.not_lt.mpr hlarge),
      if_neg (Nat.not_lt.mpr (Nat.le_trans hlarge hmn))]
    rcases Nat.lt_or_ge m 1000000000 with hsmall | hlarge
    · rw [if_pos hsmall, if_pos (hsecond hsmall)]
    · rw [if_neg (Nat.not_lt.mpr hlarge), if_neg (Nat.not_lt.mpr (Nat.le_trans hlarge hmn))]

theorem nanos_mono {m : Nat} (h : m ≤ n) : (ofNanos m).nanos ≤ (ofNanos n).nanos := by
  by_cases hbetween : ∃ unit, Coarse unit ∧ m < unit ∧ unit ≤ n
  · obtain ⟨unit, hunit, hm, hn⟩ := hbetween
    exact (nanos_le hunit hm).trans (le_nanos hunit hn)
  · have hsame : ∀ unit, Coarse unit → m < unit → n < unit :=
      fun unit hunit hm => Nat.lt_of_not_le fun hn => hbetween ⟨unit, hunit, hm, hn⟩
    rcases Nat.lt_or_ge m 1000 with hsmall | hlarge
    · rw [nanos_of_lt hsmall, nanos_of_lt (hsame 1000 (Or.inl rfl) hsmall)]
      exact_mod_cast h
    · have hshown := hundredthsIn_mono (unitFor_pos n) h
      rw [ofNanos_of_le hlarge, ofNanos_of_le (Nat.le_trans hlarge h), nanos_inHundredths,
        nanos_inHundredths, unitFor_eq h hsame]
      gcongr

end ShownLatency

/-- **The latency that a text denotes grows with the count that was written**, over all 64-bit words and
through all units. -/
theorem latencyText_mono {m n : Nat} (hle : m ≤ n) (hword : n < 2 ^ 64) :
    ∃ s t : ShownLatency, ShownLatency.read? (latencyText m) = some s ∧
      ShownLatency.read? (latencyText n) = some t ∧ s.nanos ≤ t.nanos :=
  ⟨_, _, ShownLatency.read?_latencyText (Nat.lt_of_le_of_lt hle hword), ShownLatency.read?_latencyText hword,
    ShownLatency.nanos_mono hle⟩

/-- Where microseconds meet milliseconds. -/
theorem latencyText_mono_thousandMicroseconds :
    999999 ≤ 1000000 ∧ 1000000 < 2 ^ 64 ∧ latencyText 999999 = "1000.00 μs" ∧
      latencyText 1000000 = "1.00 ms" ∧
      ∃ s t : ShownLatency, ShownLatency.read? (latencyText 999999) = some s ∧
        ShownLatency.read? (latencyText 1000000) = some t ∧ s.nanos ≤ t.nanos :=
  ⟨by decide, by decide, by decide +kernel, by decide +kernel,
    latencyText_mono (by decide) (by decide)⟩

end LatencyLog
