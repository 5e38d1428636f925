import LatencyLog.Proofs.Binary64.Between
import LatencyLog.Proofs.Binary64.Division
import LatencyLog.Proofs.Series.Numbers

/-!
# The unit of a series fits its mean

The unit is chosen before anything is divided: it is the coarsest of the kind whose nanoseconds the mean
reaches (`le_unitFor_iff`). What is shown is the quotient, rounded, and so it has to be said of numbers near
the bounds that they are still shown on their side of them. From below that is monotony: what is not below a
unit is shown as 1 at least, as the unit itself is shown as 1. From above it is not: nothing keeps the greatest
number below 1000000 from being shown as 1000 microseconds but how far it is from 1000000, and that is just
enough (`scale_lt_thousand`). The gap there, divided by the nanoseconds of a microsecond, is a little more than
half of the gap below 1000, and rounding up bridges no more than half of one.

The coarsest unit of a kind has nothing above it, and there a mean may be shown as a thousand and more.
-/

namespace LatencyLog

open Binary64 (zero one)

/-! ## Scaling by one unit -/

namespace LatencyUnit

variable {x y : Binary64}

theorem zero_le_divisor (u : LatencyUnit) : zero.le u.divisor = true := Binary64.zero_le_ofNat _

theorem thousand_mul_nanos_le (u : LatencyUnit) : 1000 * u.nanos ≤ 2 ^ 53 := by
  cases u <;> decide

theorem height_divisor (u : LatencyUnit) : u.divisor.height = u.nanos * Binary64.unity := by
  have hbound := u.thousand_mul_nanos_le
  exact Binary64.height_ofNat (by omega)

/-- **Values keep their order in any unit.** -/
theorem scale_mono (u : LatencyUnit) (h : x.le y = true) : (u.scale x).le (u.scale y) = true := by
  obtain ⟨m, hm, hunits⟩ := u.exists_divisor
  rw [scale, scale, hm]
  exact Binary64.div_le_div (units_divisor_pos hunits) h

theorem scale_divisor (u : LatencyUnit) : u.scale u.divisor = one := by
  obtain ⟨m, hm, hunits⟩ := u.exists_divisor
  rw [scale, hm]
  exact Binary64.finite_div_self (units_divisor_pos hunits)

/-- What reaches a unit is shown as 1 or more. -/
theorem one_le_scale (u : LatencyUnit) (h : u.divisor.le x = true) : one.le (u.scale x) = true := by
  rw [← u.scale_divisor]
  exact u.scale_mono h

/-- **What is below a thousand of a unit is shown as less than a thousand.** -/
theorem scale_lt_thousand (u : LatencyUnit) (hx : zero.le x = true)
    (h : x.height < 1000 * u.nanos * Binary64.unity) : (u.scale x).lt (.ofNat 1000) = true := by
  have hbound := u.thousand_mul_nanos_le
  have hceiling : 2 ^ 53 * Binary64.unity < Binary64.ceiling := by decide +kernel
  have hlarge : 2 ^ 53 < 1000 * Binary64.unity := by decide +kernel
  have hfinite : x.isFinite = true := by
    rw [Binary64.isFinite_iff_height_lt hx]
    exact Nat.lt_trans h (Nat.lt_of_le_of_lt (Nat.mul_le_mul_right _ hbound) hceiling)
  obtain ⟨hscale, hheight⟩ := Binary64.height_div_ofNat hx hfinite u.nanos_pos (by omega)
  have hreached : 1000 * Binary64.unity * u.nanos = 1000 * u.nanos * Binary64.unity :=
    Nat.mul_right_comm _ _ _
  rw [scale, divisor, Binary64.lt_iff_height_lt hscale (Binary64.zero_le_ofNat _), hheight,
    Binary64.height_ofNat (by decide)]
  refine Binary64.roundToGrid_lt_of_onGrid u.nanos_pos hlarge (Binary64.onGrid_height hx) ?_ ?_
  · rw [hreached]
    exact Binary64.onGrid_mul_unity hbound
  · rwa [hreached]

end LatencyUnit

/-! ## The unit of a mean -/

namespace SeriesKind

variable {kind : SeriesKind} {mean mean' : Binary64}

/-- The unit that a kind of series does not go beyond. -/
def coarsest : SeriesKind → LatencyUnit
  | point => .microseconds
  | hop => .milliseconds

/-- **The unit of a mean is the coarsest unit of its kind that the mean reaches**, and nanoseconds if there is
none. -/
theorem le_unitFor_iff (u : LatencyUnit) :
    u.nanos ≤ (kind.unitFor mean).nanos ↔
      u = .nanoseconds ∨ (u.nanos ≤ kind.coarsest.nanos ∧ u.divisor.le mean = true) := by
  cases u with
  | nanoseconds => exact iff_of_true (kind.unitFor mean).nanos_pos (Or.inl rfl)
  | microseconds =>
    rw [or_iff_right (by decide), and_iff_right (by cases kind <;> decide)]
    cases kind with
    | point =>
      simp only [unitFor]
      split
      case isTrue hmicro => exact iff_of_true (by decide) hmicro
      case isFalse hmicro => exact iff_of_false (by decide) hmicro
    | hop =>
      simp only [unitFor]
      split
      case isTrue hmilli =>
        -- What reaches milliseconds has passed microseconds.
        exact iff_of_true (by decide) (Binary64.le_trans (by decide +kernel) hmilli)
      case isFalse =>
        split
        case isTrue hmicro => exact iff_of_true (by decide) hmicro
        case isFalse hmicro => exact iff_of_false (by decide) hmicro
  | milliseconds =>
    rw [or_iff_right (by decide)]
    cases kind with
    | point =>
      refine iff_of_false ?_ fun h => absurd h.1 (by decide)
      simp only [unitFor]
      split <;> decide
    | hop =>
      rw [and_iff_right (by decide)]
      simp only [unitFor]
      split
      case isTrue hmilli => exact iff_of_true (by decide) hmilli
      case isFalse hmilli =>
        refine iff_of_false ?_ hmilli
        split <;> decide

theorem unitFor_le_coarsest (kind : SeriesKind) (mean : Binary64) :
    (kind.unitFor mean).nanos ≤ kind.coarsest.nanos := by
  rcases (le_unitFor_iff (kind.unitFor mean)).mp (Nat.le_refl _) with hnanos | ⟨hle, _⟩
  · rw [hnanos]
    exact kind.coarsest.nanos_pos
  · exact hle

theorem divisor_le_of_unitFor (h : kind.unitFor mean ≠ .nanoseconds) :
    (kind.unitFor mean).divisor.le mean = true :=
  (((le_unitFor_iff (kind.unitFor mean)).mp (Nat.le_refl _)).resolve_left h).2

/-- **A greater mean has no finer unit.** -/
theorem unitFor_mono (h : mean.le mean' = true) :
    (kind.unitFor mean).nanos ≤ (kind.unitFor mean').nanos := by
  rw [le_unitFor_iff]
  rcases (le_unitFor_iff (kind.unitFor mean)).mp (Nat.le_refl _) with hnanos | ⟨hle, hreached⟩
  · exact Or.inl hnanos
  · exact Or.inr ⟨hle, Binary64.le_trans hreached h⟩

/-- Below the coarsest unit there is a next one, a thousand times as long. -/
theorem exists_next {u : LatencyUnit} (hle : u.nanos ≤ kind.coarsest.nanos) (hne : u ≠ kind.coarsest) :
    ∃ v : LatencyUnit, v.nanos = 1000 * u.nanos ∧ v.nanos ≤ kind.coarsest.nanos := by
  cases u with
  | nanoseconds =>
    refine ⟨.microseconds, rfl, ?_⟩
    cases kind <;> decide
  | microseconds =>
    cases kind with
    | point => exact absurd rfl hne
    | hop => exact ⟨.milliseconds, by decide, by decide⟩
  | milliseconds =>
    cases kind with
    | point => exact absurd hle (by decide)
    | hop => exact absurd rfl hne

/-- A mean whose unit is not the coarsest is below the next. -/
theorem height_lt_of_unitFor (hmean : zero.le mean = true) (h : kind.unitFor mean ≠ kind.coarsest) :
    mean.height < 1000 * (kind.unitFor mean).nanos * Binary64.unity := by
  obtain ⟨v, hv, hle⟩ := exists_next (unitFor_le_coarsest kind mean) h
  rw [← hv, ← v.height_divisor, ← Nat.not_le, ← Binary64.le_iff_height_le v.zero_le_divisor hmean]
  intro hreached
  have hfiner := (le_unitFor_iff v).mpr (Or.inr ⟨hle, hreached⟩)
  have hpos := (kind.unitFor mean).nanos_pos
  omega

/-- **The unit fits the mean.** A positive finite mean is shown as 1 or more, unless it is shown in nanoseconds,
and as less than 1000, unless there is no coarser unit. A greater mean has no finer unit, and in one unit no
two values are shown in the wrong order. -/
theorem unitFor_fits (kind : SeriesKind) :
    (∀ mean : Binary64, mean.isUsable = true →
      (kind.unitFor mean ≠ .nanoseconds → one.le ((kind.unitFor mean).scale mean) = true) ∧
      (kind.unitFor mean ≠ kind.coarsest →
        ((kind.unitFor mean).scale mean).lt (.ofNat 1000) = true)) ∧
      (∀ mean mean' : Binary64, mean.le mean' = true →
        (kind.unitFor mean).nanos ≤ (kind.unitFor mean').nanos) ∧
      ∀ (u : LatencyUnit) (x y : Binary64), x.le y = true → (u.scale x).le (u.scale y) = true := by
  refine ⟨fun mean husable => ⟨fun h => ?_, fun h => ?_⟩, fun _ _ h => unitFor_mono h,
    fun u _ _ h => u.scale_mono h⟩
  · exact LatencyUnit.one_le_scale _ (divisor_le_of_unitFor h)
  · have hmean := Binary64.le_of_lt (Bool.and_eq_true_iff.mp husable).1
    exact LatencyUnit.scale_lt_thousand _ hmean (height_lt_of_unitFor hmean h)

/-- The greatest number below a million. -/
def belowMillion : Binary64 := .ofDecimal false 9999999999999999 (-10)

/-- Just below a millisecond a hop is shown in microseconds, and as less than a thousand of them. -/
theorem unitFor_fits_belowMillion :
    belowMillion.isUsable = true ∧ hop.unitFor belowMillion ≠ .nanoseconds ∧
      hop.unitFor belowMillion ≠ hop.coarsest ∧ belowMillion.le (.ofNat 1000000) = true ∧
      one.le (LatencyUnit.microseconds.scale belowMillion) = true ∧
      (LatencyUnit.microseconds.scale belowMillion).lt (.ofNat 1000) = true ∧
      (hop.unitFor belowMillion).nanos ≤ (hop.unitFor (.ofNat 1000000)).nanos ∧
      (LatencyUnit.milliseconds.scale belowMillion).le
        (LatencyUnit.milliseconds.scale (.ofNat 1000000)) = true := by
  have husable : belowMillion.isUsable = true := by decide +kernel
  have hunit : hop.unitFor belowMillion = .microseconds := by decide +kernel
  have hle : belowMillion.le (.ofNat 1000000) = true := by decide +kernel
  have hnanos : hop.unitFor belowMillion ≠ .nanoseconds := by
    rw [hunit]
    decide
  have hcoarsest : hop.unitFor belowMillion ≠ hop.coarsest := by
    rw [hunit]
    decide
  obtain ⟨hshown, hmono, hscale⟩ := unitFor_fits hop
  obtain ⟨hone, hthousand⟩ := hshown belowMillion husable
  have hlow := hone hnanos
  have hhigh := hthousand hcoarsest
  rw [hunit] at hlow hhigh
  exact ⟨husable, hnanos, hcoarsest, hle, hlow, hhigh, hmono _ _ hle, hscale _ _ _ hle⟩

end SeriesKind

end LatencyLog
