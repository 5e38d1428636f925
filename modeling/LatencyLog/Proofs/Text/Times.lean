import LatencyLog.Proofs.Decimal.Characters
import LatencyLog.Proofs.Decimal.Digits
import LatencyLog.TimeOfDay
import Mathlib.Data.List.Basic

/-!
# Times and their texts

A time is written with all its digits: two for each of the three numbers, a leap second's 60 included, and
as many of the fraction as it takes. So what a stamp may leave open is settled in it, and it is read as the
time that was written (`read?_text`), in each of the four widths of a fraction.
-/

namespace LatencyLog.TimeOfDay

open Decimal (natOfDigits padded zeros)

/-! ## Numbers of two digits -/

theorem trimStart_digit {d : Char} (hd : d.isDigit = true) (cs : List Char) :
    Text.trimStart (d :: cs) = d :: cs :=
  List.dropWhile_cons_of_neg (by rw [Decimal.isBlank_of_isDigit hd]; decide)

theorem number?_padded_append {n : Nat} (hn : n < 100) (rest : List Char) :
    number? (padded 2 n ++ rest) = some (n, rest) := by
  have hdigits := Decimal.allDigits_padded 2 n
  have hvalue := Decimal.natOfDigits_padded 2 n
  obtain ⟨a, b, hab⟩ := List.length_eq_two.mp (Decimal.length_padded (by decide) hn)
  rw [hab] at hdigits hvalue ⊢
  obtain ⟨ha, hb⟩ := List.forall_mem_cons.mp hdigits
  have hb := hb b (List.mem_cons_self ..)
  rw [number?, List.cons_append, trimStart_digit ha]
  simp only [List.cons_append, List.nil_append, ha, hb, if_true, hvalue]

/-! ## Fractions -/

theorem nanoOfFraction_padded {width k : Nat} (hpos : 0 < width) (hle : width ≤ 9)
    (hk : k < 10 ^ width) : nanoOfFraction (padded width k) = k * 10 ^ (9 - width) := by
  have hlength := Decimal.length_padded hpos hk
  rw [nanoOfFraction, List.take_append, hlength, List.take_of_length_le (by omega),
    List.take_replicate, Nat.min_eq_left (Nat.sub_le _ _)]
  exact (Decimal.natOfDigits_append_zeros _ _).trans (by rw [Decimal.natOfDigits_padded])

theorem fraction?_padded {width k : Nat} (hpos : 0 < width) (hle : width ≤ 9) (hk : k < 10 ^ width) :
    fraction? ('.' :: padded width k) = some (k * 10 ^ (9 - width)) := by
  have hne : (padded width k).isEmpty = false := by
    rw [List.isEmpty_eq_false_iff, ← List.length_pos_iff, Decimal.length_padded hpos hk]
    exact hpos
  rw [fraction?, hne, (Decimal.allDigits_padded width k).all, nanoOfFraction_padded hpos hle hk]
  rfl

theorem fraction?_fractionText {nano : Nat} (h : nano < 1000000000) :
    fraction? (fractionText nano) = some nano := by
  unfold fractionText
  split
  case isTrue hzero => rw [hzero]; rfl
  case isFalse =>
    split
    case isTrue hmillis =>
      rw [fraction?_padded (by decide) (by decide) (by omega)]
      exact congrArg some (by omega)
    case isFalse =>
      split
      case isTrue hmicros =>
        rw [fraction?_padded (by decide) (by decide) (by omega)]
        exact congrArg some (by omega)
      case isFalse =>
        rw [fraction?_padded (by decide) (by decide) (by omega)]
        exact congrArg some (by omega)

/-! ## Times -/

/-- **A time is read from its text.** -/
theorem read?_text (t : TimeOfDay) : read? t.text = some t := by
  obtain ⟨hour, minute, second, nano, hhour, hminute, hsecond, hnano⟩ := t
  have hparts : ofParts? hour minute second nano =
      some ⟨hour, minute, second, nano, hhour, hminute, hsecond, hnano⟩ :=
    dif_pos ⟨hhour, hminute, hsecond, hnano⟩
  simp only [read?, text, List.append_assoc, List.cons_append,
    number?_padded_append (show hour < 100 by omega), number?_padded_append (show minute < 100 by omega),
    number?_padded_append (show second < 100 by omega), fraction?_fractionText hnano, colon?, hparts,
    Option.bind_eq_bind, Option.bind_some]

def tenOClock : TimeOfDay := ⟨10, 0, 0, 0, by decide, by decide, by decide, by decide⟩

end LatencyLog.TimeOfDay
