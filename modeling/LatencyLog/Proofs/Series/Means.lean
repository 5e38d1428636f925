import LatencyLog.Proofs.Binary64.Heights
import LatencyLog.Series.Basic

/-!
# Means of values that are not negative

A mean is a sum and a division, and what can go wrong is in the sum: it is taken in full before anything is
divided, so it can be infinite where the mean need not be, and then the mean is infinite
(`isFinite_mean`). A sum of fewer and smaller values is not greater (`height_sum_le`), rounding
notwithstanding, so where a series has a finite sum each of its windows has.

A mean of positive values is positive (`zero_lt_mean`). This is not for nothing, as values of one unit are
divided by how many there are; but so many of them add up to so many units, up to 2^53 of them
(`mul_le_foldl_accumulate`).
-/

namespace LatencyLog.Series

open Binary64

/-! ## Sums by height -/

theorem foldl_add {xs : List Binary64} (hxs : ∀ x ∈ xs, zero.le x = true) {start : Binary64}
    (hstart : zero.le start = true) :
    zero.le (xs.foldl (· + ·) start) = true ∧
      (xs.foldl (· + ·) start).height = (xs.map height).foldl accumulate start.height := by
  induction xs generalizing start with
  | nil => exact ⟨hstart, rfl⟩
  | cons x xs ih =>
    rw [List.forall_mem_cons] at hxs
    obtain ⟨hsum, hheight⟩ := height_add hstart hxs.1
    rw [List.foldl_cons, List.map_cons, List.foldl_cons, ← hheight]
    exact ih hxs.2 hsum

theorem zero_le_sum {xs : List Binary64} (hxs : ∀ x ∈ xs, zero.le x = true) :
    zero.le (sum xs) = true := (foldl_add hxs zero_le_negativeZero).1

theorem height_sum {xs : List Binary64} (hxs : ∀ x ∈ xs, zero.le x = true) :
    (sum xs).height = (xs.map height).foldl accumulate 0 := by
  rw [sum, (foldl_add hxs zero_le_negativeZero).2, height_negativeZero]

/-! ## Fewer and smaller values -/

/-- Heights left out and made smaller do not make the sum greater. The sum that more is added to has to
be on the grid: rounding could take it below what it was otherwise. -/
theorem foldl_accumulate_le {α : Type} {ps qs : List α} (hsub : ps.Sublist qs) {f g : α → Nat}
    (hfg : ∀ p ∈ qs, f p ≤ g p) {a b : Nat} (hab : a ≤ b) (hgrid : OnGrid b) (hle : b ≤ ceiling) :
    (ps.map f).foldl accumulate a ≤ (qs.map g).foldl accumulate b := by
  induction hsub generalizing a b with
  | slnil => exact hab
  | cons q hsub ih =>
    -- Only the greater sum goes on, and it does not fall.
    rw [List.forall_mem_cons] at hfg
    refine ih hfg.2 ?_ (onGrid_accumulate b (g q)) (accumulate_le_ceiling b (g q))
    exact Nat.le_trans hab (le_accumulate hgrid hle (Nat.le_add_right b (g q)))
  | cons_cons q hsub ih =>
    rw [List.forall_mem_cons] at hfg
    exact ih hfg.2 (accumulate_mono hab hfg.1) (onGrid_accumulate b (g q))
      (accumulate_le_ceiling b (g q))

/-- **Some of the values, and none of them greater, have no greater sum.** -/
theorem height_sum_le {α : Type} {ps qs : List α} (hsub : ps.Sublist qs) {f g : α → Binary64}
    (hf : ∀ p ∈ qs, zero.le (f p) = true) (hg : ∀ p ∈ qs, zero.le (g p) = true)
    (hfg : ∀ p ∈ qs, (f p).height ≤ (g p).height) :
    (sum (ps.map f)).height ≤ (sum (qs.map g)).height := by
  have hps : ∀ x ∈ ps.map f, zero.le x = true :=
    List.forall_mem_map.mpr fun p hp => hf p (hsub.subset hp)
  have hqs : ∀ x ∈ qs.map g, zero.le x = true := List.forall_mem_map.mpr hg
  rw [height_sum hps, height_sum hqs, List.map_map, List.map_map]
  exact foldl_accumulate_le hsub hfg (Nat.le_refl 0) onGrid_zero (Nat.zero_le _)

/-! ## Sums of few units -/

/-- Up to 2^53 units nothing is rounded, so a sum is not below so many times what no value is below. -/
theorem mul_le_foldl_accumulate {ns : List Nat} {g : Nat} (hge : ∀ n ∈ ns, g ≤ n) {a k : Nat}
    (hak : k * g ≤ a) (hle : (k + ns.length) * g ≤ 2 ^ 53) :
    (k + ns.length) * g ≤ ns.foldl accumulate a := by
  induction ns generalizing a k with
  | nil => exact hak
  | cons n ns ih =>
    rw [List.forall_mem_cons] at hge
    rw [List.length_cons, Nat.add_comm ns.length, ← Nat.add_assoc] at hle ⊢
    have hceiling : 2 ^ 53 ≤ ceiling := by decide +kernel
    have hnext : (k + 1) * g ≤ 2 ^ 53 := Nat.le_trans (Nat.mul_le_mul_right g (Nat.le_add_right _ _)) hle
    have hstep : (k + 1) * g ≤ accumulate a n := by
      refine le_accumulate (onGrid_of_le hnext) (Nat.le_trans hnext hceiling) ?_
      rw [Nat.succ_mul]
      exact Nat.add_le_add hak hge.1
    exact ih hge.2 hstep hle

theorem foldl_accumulate_le_mul {ns : List Nat} {g : Nat} (hle : ∀ n ∈ ns, n ≤ g) {a k : Nat}
    (hak : a ≤ k * g) (hbound : (k + ns.length) * g ≤ 2 ^ 53) :
    ns.foldl accumulate a ≤ (k + ns.length) * g := by
  induction ns generalizing a k with
  | nil => exact hak
  | cons n ns ih =>
    rw [List.forall_mem_cons] at hle
    rw [List.length_cons, Nat.add_comm ns.length, ← Nat.add_assoc] at hbound ⊢
    have hnext : (k + 1) * g ≤ 2 ^ 53 :=
      Nat.le_trans (Nat.mul_le_mul_right g (Nat.le_add_right _ _)) hbound
    have hstep : accumulate a n ≤ (k + 1) * g := by
      refine Nat.le_trans (Nat.min_le_left _ _) ?_
      refine roundToGrid_le_of_le_mul Nat.one_pos (onGrid_of_le hnext) ?_
      rw [Nat.mul_one, Nat.succ_mul]
      exact Nat.add_le_add hak hle.1
    exact ih hle.2 hstep hbound

theorem mul_le_height_sum {xs : List Binary64} (hxs : ∀ x ∈ xs, zero.le x = true) {g : Nat}
    (hge : ∀ x ∈ xs, g ≤ x.height) (hfew : xs.length * g ≤ 2 ^ 53) :
    xs.length * g ≤ (sum xs).height := by
  have hstart : 0 * g ≤ 0 := Nat.le_of_eq (Nat.zero_mul g)
  have hsum := mul_le_foldl_accumulate (List.forall_mem_map.mpr hge) hstart
  rw [List.length_map, Nat.zero_add] at hsum
  rw [height_sum hxs]
  exact hsum hfew

theorem height_sum_le_mul {xs : List Binary64} (hxs : ∀ x ∈ xs, zero.le x = true) {g : Nat}
    (hle : ∀ x ∈ xs, x.height ≤ g) (hfew : xs.length * g ≤ 2 ^ 53) :
    (sum xs).height ≤ xs.length * g := by
  have hsum := foldl_accumulate_le_mul (List.forall_mem_map.mpr hle) (Nat.zero_le (0 * g))
  rw [List.length_map, Nat.zero_add] at hsum
  rw [height_sum hxs]
  exact hsum hfew

theorem length_le_height_sum {xs : List Binary64} (hpos : ∀ x ∈ xs, zero.lt x = true)
    (hle : xs.length ≤ 2 ^ 53) : xs.length ≤ (sum xs).height := by
  have hzero : ∀ x ∈ xs, zero.le x = true := fun x hx => le_of_lt (hpos x hx)
  have hunits : ∀ x ∈ xs, 1 ≤ x.height := fun x hx => (zero_lt_iff_height_pos (hzero x hx)).mp (hpos x hx)
  have hsum := mul_le_height_sum hzero hunits
  rw [Nat.mul_one] at hsum
  exact hsum hle

/-! ## Means -/

section Mean

variable {xs : List Binary64}

/-- **A mean is finite if the sum is.** -/
theorem isFinite_mean (hne : xs ≠ []) (hxs : ∀ x ∈ xs, zero.le x = true) :
    (sum xs / ofNat xs.length).isFinite = (sum xs).isFinite :=
  isFinite_div_ofNat (zero_le_sum hxs) (List.length_pos_iff.mpr hne)

/-- **A mean of positive values is positive.** -/
theorem zero_lt_mean (hne : xs ≠ []) (hpos : ∀ x ∈ xs, zero.lt x = true)
    (hle : xs.length ≤ 2 ^ 53) : zero.lt (sum xs / ofNat xs.length) = true := by
  have hlength := List.length_pos_iff.mpr hne
  have hsum := length_le_height_sum hpos hle
  rw [zero_lt_div_ofNat_iff (zero_le_sum fun x hx => le_of_lt (hpos x hx)) hlength hle]
  omega

end Mean

end LatencyLog.Series
