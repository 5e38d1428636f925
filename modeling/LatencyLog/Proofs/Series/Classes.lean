import LatencyLog.Proofs.Binary64.Rounding
import LatencyLog.Series.Histogram

/-!
# Classes of values

The class of a value is a run of naturals, from `bottom` to `top`, as wide as the power of two below the
value is high, less ten places. All that is known of a class follows from that power being in the class of
its width, or below: it does not lie inside (`two_pow_log2_le_bottom`). So the bottom of a class has the
width of the class (`width_bottom`) and with it the same ends (`top_bottom`). Classes are in the order of
their values (`bottom_mono`, `top_mono`), across powers of two as well, where the width changes.

The ends are near. A width is one part in 1024 of the power, at most, and so of each value in the class
(`justBelow_bottom`, `justAbove_top`).
-/

namespace LatencyLog

open Binary64 (maxWord log2_mono)

/-! ## Near a value -/

/-- `v` is `x` where `x` is less than 2048, and less than one part in 1024 above it otherwise. -/
structure JustAbove (x v : Nat) : Prop where
  le : x ≤ v
  eq_of_lt : x < 2048 → v = x
  sub_lt : 2048 ≤ x → 1024 * (v - x) < x

/-- `v` is `x` where `x` is less than 2048, and less than one part in 1024 below it otherwise. -/
structure JustBelow (x v : Nat) : Prop where
  le : v ≤ x
  eq_of_lt : x < 2048 → v = x
  sub_lt : 2048 ≤ x → 1024 * (x - v) < x

theorem JustAbove.refl (x : Nat) : JustAbove x x := ⟨Nat.le_refl x, fun _ => rfl, by omega⟩

theorem JustBelow.refl (x : Nat) : JustBelow x x := ⟨Nat.le_refl x, fun _ => rfl, by omega⟩

namespace LatencyClass

variable {v w : Nat}

/-! ## Widths -/

theorem width_eq (v : Nat) : width v = 2 ^ (v.log2 - 10) := Nat.one_shiftLeft _

theorem width_mono (h : v ≤ w) : width v ≤ width w := by
  rw [width_eq, width_eq]
  exact Nat.pow_le_pow_right Nat.two_pos (Nat.sub_le_sub_right (log2_mono h) 10)

theorem width_of_lt (h : v < 2048) : width v = 1 := by
  have hlog : v.log2 ≤ 10 := log2_mono (Nat.le_of_lt_succ h)
  rw [width_eq, Nat.sub_eq_zero_of_le hlog, Nat.pow_zero]

/-- A width is one part in 1024 at most. -/
theorem mul_width_le (h : 2048 ≤ v) : 1024 * width v ≤ v :=
  Binary64.two_pow_mul_shift_le (k := 10) (Nat.le_trans (by decide) h)

/-! ## Bottoms -/

theorem width_dvd_bottom (v : Nat) : width v ∣ bottom v := Nat.dvd_sub_mod v

/-- The bottom is the greatest multiple of the width that is not above. -/
theorem le_bottom {n : Nat} (hdvd : width v ∣ n) (h : n ≤ v) : n ≤ bottom v := by
  obtain ⟨k, rfl⟩ := hdvd
  have hle : k ≤ v / width v := by
    rw [Nat.le_div_iff_mul_le (width_pos v), Nat.mul_comm]
    exact h
  have hbottom : bottom v = width v * (v / width v) := by
    have hdiv := Nat.div_add_mod v (width v)
    unfold bottom
    omega
  rw [hbottom]
  exact Nat.mul_le_mul_left _ hle

/-- **The power of two below a value is not inside its class.** -/
theorem two_pow_log2_le_bottom (h : v ≠ 0) : 2 ^ v.log2 ≤ bottom v := by
  refine le_bottom ?_ (Nat.log2_self_le h)
  rw [width_eq]
  exact Nat.pow_dvd_pow 2 (Nat.sub_le _ _)

theorem log2_bottom (v : Nat) : (bottom v).log2 = v.log2 := by
  rcases Nat.eq_zero_or_pos v with rfl | hv
  · rfl
  · have hpow := two_pow_log2_le_bottom (Nat.ne_of_gt hv)
    have hpos := Nat.two_pow_pos v.log2
    rw [Nat.log2_eq_iff (by omega)]
    exact ⟨hpow, Nat.lt_of_le_of_lt (bottom_le v) Nat.lt_log2_self⟩

theorem width_bottom (v : Nat) : width (bottom v) = width v := by
  rw [width_eq, width_eq, log2_bottom]

theorem bottom_bottom (v : Nat) : bottom (bottom v) = bottom v :=
  Nat.le_antisymm (bottom_le _)
    (le_bottom (by rw [width_bottom]; exact width_dvd_bottom v) (Nat.le_refl _))

/-- **Classes are in the order of their values.** -/
theorem bottom_mono (h : v ≤ w) : bottom v ≤ bottom w := by
  -- A power of two lies between the values, and then it lies between their classes, or their classes have
  -- one width.
  rcases Nat.lt_or_ge v.log2 w.log2 with hlt | hge
  · have hw : w ≠ 0 := by
      rintro rfl
      exact Nat.not_lt_zero _ hlt
    calc bottom v ≤ v := bottom_le v
      _ ≤ 2 ^ (v.log2 + 1) := Nat.le_of_lt Nat.lt_log2_self
      _ ≤ 2 ^ w.log2 := Nat.pow_le_pow_right Nat.two_pos hlt
      _ ≤ bottom w := two_pow_log2_le_bottom hw
  · have hwidth : width w = width v := by
      rw [width_eq, width_eq, Nat.le_antisymm (log2_mono h) hge]
    refine le_bottom ?_ (Nat.le_trans (bottom_le v) h)
    rw [hwidth]
    exact width_dvd_bottom v

theorem bottom_of_lt (h : v < 2048) : bottom v = v := by
  rw [bottom, width_of_lt h, Nat.mod_one, Nat.sub_zero]

theorem justBelow_bottom (v : Nat) : JustBelow v (bottom v) where
  le := bottom_le v
  eq_of_lt := bottom_of_lt
  sub_lt h := by
    have hwidth := mul_width_le h
    have hlt := lt_bottom_add_width v
    omega

/-! ## Tops -/

theorem top_bottom (v : Nat) : top (bottom v) = top v := by
  rw [top, top, bottom_bottom, width_bottom]

theorem top_mono (h : v ≤ w) : top v ≤ top w := by
  have hbottom := bottom_mono h
  have hwidth := width_mono h
  unfold top
  omega

theorem top_lt (v : Nat) : top v < maxWord := by
  have hmax : 0 < maxWord := by decide
  unfold top
  omega

theorem le_top (h : v < maxWord) : v ≤ top v := by
  have hlt := lt_bottom_add_width v
  unfold top
  omega

theorem bottom_le_top (h : v ≤ maxWord) : bottom v ≤ top v := by
  have hwidth := width_pos v
  have hlast : bottom maxWord < maxWord := by decide +kernel
  have hbottom := bottom_mono h
  unfold top
  omega

theorem justAbove_top (h : v < maxWord) : JustAbove v (top v) where
  le := le_top h
  eq_of_lt hsmall := by
    rw [top, bottom_of_lt hsmall, width_of_lt hsmall]
    omega
  sub_lt hlarge := by
    have hwidth := mul_width_le hlarge
    have hbottom := bottom_le v
    have hle := le_top h
    unfold top at hle ⊢
    omega

/-! ## Ends of extremes -/

theorem justBelow_lowEnd (v : Nat) : JustBelow v (lowEnd v) := by
  unfold lowEnd
  split
  · rename_i hmax
    rw [hmax]
    exact JustBelow.refl maxWord
  · exact justBelow_bottom v

theorem justAbove_highEnd (h : v ≤ maxWord) : JustAbove v (highEnd v) := by
  unfold highEnd
  split
  · rename_i hmax
    rw [hmax]
    exact JustAbove.refl maxWord
  · exact justAbove_top (by omega)

/-- The least value is not above any class, unless it is the greatest word. -/
theorem lowEnd_le_top (hmax : v < maxWord) (h : v ≤ w) (hw : w ≤ maxWord) : lowEnd v ≤ top w := by
  rw [lowEnd, if_neg (by omega)]
  exact Nat.le_trans (bottom_mono h) (bottom_le_top hw)

theorem top_le_highEnd (h : v ≤ w) : top v ≤ highEnd w := by
  unfold highEnd
  split
  · exact Nat.le_of_lt (top_lt v)
  · exact top_mono h

end LatencyClass

end LatencyLog
