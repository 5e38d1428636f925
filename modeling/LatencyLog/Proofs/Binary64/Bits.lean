import LatencyLog.Binary64.Basic
import Mathlib.Algebra.Group.Nat.Defs

/-!
# Bit patterns tell numbers apart

`Binary64` is a type of numbers and not of words, and what makes it stand for the words is
`bits_injective`: no two numbers have one pattern. So to say that a record keeps its bits is to say
that it is the same record.

The pattern is the sign in front of a payload. A finite payload is read back in two steps: its upper
part gives the number of places by which the 53 significant bits were moved (`log2_sub_eq`), and
then the rest gives those bits.
-/

namespace LatencyLog.Binary64

/-! ## Payloads of magnitudes -/

/-- What `payload` is on a finite number, as a function of the magnitude alone. -/
theorem payload_finite (s : Bool) (m : Magnitude) :
    (finite s m).payload = (m.units.log2 - 52) * 2 ^ 52 + m.units / gap m.units := by
  rw [payload, Nat.shiftLeft_eq]

/-- A magnitude is its significant bits, moved up. -/
theorem units_eq (m : Magnitude) :
    m.units = m.units / gap m.units * 2 ^ (m.units.log2 - 52) := by
  have h := Nat.div_mul_cancel m.onGrid
  rw [gap, Nat.one_shiftLeft] at h ⊢
  exact h.symm

/-- Where there is a move, there are 53 significant bits, neither more nor fewer. -/
theorem le_div_gap {n : Nat} (h : 52 < n.log2) : 2 ^ 52 ≤ n / gap n := by
  have hn : n ≠ 0 := by
    rintro rfl
    simp at h
  rw [Nat.le_div_iff_mul_le (gap_pos n), gap, Nat.one_shiftLeft, ← Nat.pow_add,
    Nat.add_sub_cancel' (Nat.le_of_lt h)]
  exact Nat.log2_self_le hn

theorem div_gap_lt' (n : Nat) : n / gap n < 2 ^ 53 := by
  have h := div_gap_lt n
  rwa [Nat.one_shiftLeft] at h

/-- The upper part of a payload gives the move. Without a move it is 0 or 1, for the 53rd bit of the
magnitude is in it. -/
theorem log2_sub_eq (s : Bool) (m : Magnitude) :
    m.units.log2 - 52 = (finite s m).payload / 2 ^ 52 - 1 := by
  rw [payload_finite]
  have hlt := div_gap_lt' m.units
  rcases Nat.lt_or_ge 52 m.units.log2 with h | h
  · have hge := le_div_gap h
    generalize m.units / gap m.units = q at hlt hge ⊢
    omega
  · rw [Nat.sub_eq_zero_of_le h]
    generalize m.units / gap m.units = q at hlt ⊢
    omega

theorem magnitude_eq_of_payload_eq {s t : Bool} {a b : Magnitude}
    (h : (finite s a).payload = (finite t b).payload) : a = b := by
  have hmove : a.units.log2 - 52 = b.units.log2 - 52 := by
    rw [log2_sub_eq s a, log2_sub_eq t b, h]
  have hbits : a.units / gap a.units = b.units / gap b.units := by
    rw [payload_finite, payload_finite, hmove] at h
    exact Nat.add_left_cancel h
  apply Magnitude.ext
  rw [units_eq a, units_eq b, hbits, hmove]

/-- Finite payloads lie below those of the infinities, which lie below those of the NaNs. -/
theorem payload_finite_lt (s : Bool) (m : Magnitude) : (finite s m).payload < 0x7ff * 2 ^ 52 := by
  rw [payload_finite]
  have hlog : m.units.log2 < 2098 := by
    rcases Nat.eq_zero_or_pos m.units with h | h
    · rw [h]
      decide
    · have hlt := m.lt_ceiling
      rw [ceiling, Nat.one_shiftLeft] at hlt
      exact (Nat.log2_lt (Nat.ne_of_gt h)).mpr hlt
  have hlt := div_gap_lt' m.units
  generalize m.units / gap m.units = q at hlt ⊢
  omega

/-! ## Patterns -/

theorem payload_nan (s : Bool) (f : NanFraction) : (nan s f).payload = 0x7ff * 2 ^ 52 + f.bits := by
  rw [payload, Nat.shiftLeft_eq]

theorem payload_infinity (s : Bool) : (infinity s).payload = 0x7ff * 2 ^ 52 := by
  rw [payload, Nat.shiftLeft_eq]

theorem payload_lt (x : Binary64) : x.payload < 2 ^ 63 := by
  cases x with
  | nan s f =>
    have hlt := f.lt
    rw [Nat.one_shiftLeft] at hlt
    rw [payload_nan]
    omega
  | infinity s =>
    rw [payload_infinity]
    decide
  | finite s m => exact Nat.lt_trans (payload_finite_lt s m) (by decide)

/-- The sign and the payload are all there is to a number. -/
theorem eq_of_payload_eq {x y : Binary64} (hs : x.isNegative = y.isNegative)
    (h : x.payload = y.payload) : x = y := by
  cases x with
  | nan s f =>
    rw [payload_nan] at h
    have hpos := f.pos
    cases y with
    | nan t g =>
      rw [payload_nan] at h
      obtain ⟨n, _, _⟩ := f
      obtain ⟨n', _, _⟩ := g
      cases Nat.add_left_cancel h
      cases hs
      rfl
    | infinity t =>
      rw [payload_infinity] at h
      omega
    | finite t b =>
      have := payload_finite_lt t b
      omega
  | infinity s =>
    rw [payload_infinity] at h
    cases y with
    | nan t g =>
      rw [payload_nan] at h
      have := g.pos
      omega
    | infinity t =>
      cases hs
      rfl
    | finite t b =>
      have := payload_finite_lt t b
      omega
  | finite s a =>
    have hlt := payload_finite_lt s a
    cases y with
    | nan t g =>
      rw [payload_nan] at h
      omega
    | infinity t =>
      rw [payload_infinity] at h
      omega
    | finite t b =>
      cases magnitude_eq_of_payload_eq h
      cases hs
      rfl

theorem toNat_bits (x : Binary64) :
    x.bits.toNat = (if x.isNegative then 2 ^ 63 else 0) + x.payload := by
  have hlt := payload_lt x
  rw [bits, Nat.one_shiftLeft, UInt64.toNat_ofNat', Nat.mod_eq_of_lt]
  split <;> omega

/-- **No two numbers have one bit pattern.** -/
theorem bits_injective {x y : Binary64} (h : x.bits = y.bits) : x = y := by
  have hx := payload_lt x
  have hy := payload_lt y
  have hnat : x.bits.toNat = y.bits.toNat := by rw [h]
  rw [toNat_bits, toNat_bits] at hnat
  -- The sign weighs more than any payload, so it cannot be made up for.
  have hsign : x.isNegative = y.isNegative := by
    cases hxs : x.isNegative <;> cases hys : y.isNegative <;>
      simp only [hxs, hys, Bool.false_eq_true, if_true, if_false] at hnat ⊢ <;> omega
  rw [hsign] at hnat
  exact eq_of_payload_eq hsign (Nat.add_left_cancel hnat)

end LatencyLog.Binary64
