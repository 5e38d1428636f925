import LatencyLog.Proofs.Binary64.Division
import LatencyLog.Series.Basic
import Mathlib.Data.List.TakeDrop

/-!
# What a rolling mean depends on

A rolling mean that carries a sum along keeps something of every value it has seen: one that is huge takes the
others out of the sum, and they do not come back when it is subtracted; one that is infinite leaves a NaN. Here
each window is summed anew, so *a smoothed value is the mean of its window and of nothing else*
(`getElem?_rollingMean_of_full`). Two lists that agree on a window have one mean there, whatever is in front
of it and behind it (`getElem?_rollingMean_congr`).

Of a window of one value the mean is the value (`mean?_singleton`). A zero with a sign is no exception, as the
sum starts at a zero with a sign; it is different with a NaN, which comes out quiet.
-/

namespace LatencyLog.Series

open Binary64

/-! ## Windows -/

/-- So many values from a position on are known by their positions. -/
theorem take_drop_congr {α : Type} {xs ys : List α} {start count : Nat}
    (h : ∀ j, start ≤ j → j < start + count → xs[j]? = ys[j]?) :
    (xs.drop start).take count = (ys.drop start).take count := by
  refine List.ext_getElem? fun j => ?_
  rw [List.getElem?_take, List.getElem?_take]
  split
  · rw [List.getElem?_drop, List.getElem?_drop]
    exact h (start + j) (Nat.le_add_right start j) (by omega)
  · rfl

variable {values others : List Binary64} {window i : Nat}

theorem length_full_window (hi : i < values.length) (hfull : max window 1 ≤ i + 1) :
    ((values.drop (i + 1 - max window 1)).take (max window 1)).length = max window 1 := by
  rw [List.length_take, List.length_drop]
  omega

/-- **Where the window is full, there is its mean.** -/
theorem getElem?_rollingMean_of_full (hi : i < values.length) (hfull : max window 1 ≤ i + 1) :
    (rollingMean values window)[i]? =
      some (mean? ((values.drop (i + 1 - max window 1)).take (max window 1))) := by
  have hlength := length_full_window hi hfull
  have hne : (values.drop (i + 1 - max window 1)).take (max window 1) ≠ [] := by
    refine List.ne_nil_of_length_pos ?_
    rw [hlength]
    exact Nat.le_max_right window 1
  rw [getElem?_rollingMean hi, if_neg (Nat.not_lt.mpr hfull), mean?, if_neg (mt List.isEmpty_iff.mp hne),
    hlength]

theorem getElem?_rollingMean_eq_none (hi : values.length ≤ i) (window : Nat) :
    (rollingMean values window)[i]? = none :=
  List.getElem?_eq_none (by rwa [length_rollingMean])

/-- **What has not entered the window or has left it makes no difference.** -/
theorem getElem?_rollingMean_congr
    (h : ∀ j, i + 1 - max window 1 ≤ j → j ≤ i → values[j]? = others[j]?) :
    (rollingMean values window)[i]? = (rollingMean others window)[i]? := by
  have hlast : values[i]? = others[i]? := h i (by omega) (Nat.le_refl i)
  rcases Nat.lt_or_ge i values.length with hi | hi
  · have hothers : i < others.length := by
      rw [List.getElem?_eq_getElem hi] at hlast
      exact (List.getElem?_eq_some_iff.mp hlast.symm).1
    rw [getElem?_rollingMean hi, getElem?_rollingMean hothers]
    rcases Nat.lt_or_ge (i + 1) (max window 1) with hshort | hfull
    · rw [if_pos hshort, if_pos hshort]
    · rw [take_drop_congr fun j hj hlt => h j hj (by omega)]
  · rw [List.getElem?_eq_none hi] at hlast
    have hothers := List.getElem?_eq_none_iff.mp hlast.symm
    rw [getElem?_rollingMean_eq_none hi, getElem?_rollingMean_eq_none hothers]

/-! ## Windows of one value -/

/-- **The mean of one value is the value.** -/
theorem mean?_singleton {x : Binary64} (h : x.isNan = false) : mean? [x] = some x := by
  have hsum : sum [x] = x := negativeZero_add h
  have hlength : ofNat [x].length = one := rfl
  rw [mean?, List.isEmpty_cons, if_neg Bool.false_ne_true, hsum, hlength, div_one h]

theorem getElem?_rollingMean_of_one (hwindow : window ≤ 1) {x : Binary64} (hx : values[i]? = some x)
    (hnan : x.isNan = false) : (rollingMean values window)[i]? = some (some x) := by
  have hone : max window 1 = 1 := Nat.max_eq_right hwindow
  obtain ⟨hi, rfl⟩ := List.getElem?_eq_some_iff.mp hx
  rw [getElem?_rollingMean_of_full hi (by omega), hone, Nat.add_sub_cancel,
    List.take_one_drop_eq_of_lt_length hi]
  exact congrArg some (mean?_singleton hnan)

/-- **A rolling mean is local.** There is a place for each value. It is empty just where the window, of one
value at least, is not full, and else holds the mean of the values in the window. So it is the same, to the bit,
in any list that has the same values there, and with a window of one value it is that value. -/
theorem rollingMean_local (values : List Binary64) (window : Nat) :
    (rollingMean values window).length = values.length ∧
      (∀ i < values.length, ((rollingMean values window)[i]? = some none ↔ i + 1 < max window 1) ∧
        (max window 1 ≤ i + 1 → (rollingMean values window)[i]? =
          some (mean? ((values.drop (i + 1 - max window 1)).take (max window 1))))) ∧
      (∀ (others : List Binary64) (i : Nat),
        (∀ j, i + 1 - max window 1 ≤ j → j ≤ i → values[j]? = others[j]?) →
          (rollingMean values window)[i]? = (rollingMean others window)[i]?) ∧
      (window ≤ 1 → ∀ (i : Nat) (x : Binary64), values[i]? = some x → x.isNan = false →
        (rollingMean values window)[i]? = some (some x)) := by
  refine ⟨length_rollingMean values window, fun i hi => ⟨?_, getElem?_rollingMean_of_full hi⟩,
    fun _ _ h => getElem?_rollingMean_congr h,
    fun hwindow _ _ hx hnan => getElem?_rollingMean_of_one hwindow hx hnan⟩
  rw [getElem?_rollingMean hi, Option.some.injEq]
  split
  case isTrue hshort => exact iff_of_true rfl hshort
  case isFalse hfull => exact iff_of_false (Option.some_ne_none _) hfull

/-- Two values behind another one. -/
def twoBehind (first : Binary64) : List Binary64 := [first, ofNat 5, ofNat 7]

/-- An infinity that has left the window is gone, and a zero by itself keeps its sign. -/
theorem rollingMean_local_infinityFirst :
    (∀ j, 2 + 1 - max 2 1 ≤ j → j ≤ 2 → (twoBehind (.infinity false))[j]? = (twoBehind negativeZero)[j]?) ∧
      (rollingMean (twoBehind (.infinity false)) 2)[2]? = (rollingMean (twoBehind negativeZero) 2)[2]? ∧
      (rollingMean (twoBehind (.infinity false)) 2)[2]? = some (some (ofNat 6)) ∧
      2 < (twoBehind (.infinity false)).length ∧ max 2 1 ≤ 2 + 1 ∧
      (rollingMean (twoBehind (.infinity false)) 2)[2]? = some (mean? [ofNat 5, ofNat 7]) ∧
      0 ≤ 1 ∧ (twoBehind negativeZero)[0]? = some negativeZero ∧ negativeZero.isNan = false ∧
      (rollingMean (twoBehind negativeZero) 0)[0]? = some (some negativeZero) := by
  have hsame : ∀ j, 2 + 1 - max 2 1 ≤ j → j ≤ 2 →
      (twoBehind (.infinity false))[j]? = (twoBehind negativeZero)[j]? := by
    intro j hlow hhigh
    obtain rfl | rfl : j = 1 ∨ j = 2 := by omega
    · rfl
    · rfl
  obtain ⟨_, hpositions, hlocal, _⟩ := rollingMean_local (twoBehind (.infinity false)) 2
  have hlength : 2 < (twoBehind (.infinity false)).length := by decide
  have hfull : max 2 1 ≤ 2 + 1 := by decide
  exact ⟨hsame, hlocal _ 2 hsame, by decide +kernel, hlength, hfull, (hpositions 2 hlength).2 hfull,
    by decide, rfl, rfl, (rollingMean_local (twoBehind negativeZero) 0).2.2.2 (by decide) 0 _ rfl rfl⟩

end LatencyLog.Series
