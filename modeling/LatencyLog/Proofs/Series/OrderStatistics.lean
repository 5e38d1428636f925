import LatencyLog.Proofs.Series.Classes
import LatencyLog.Proofs.Series.Counting
import Mathlib.Data.List.Sort

/-!
# Values by rank

A histogram finds a value by adding up counts, class by class, until there are enough. That is the value at
a place of a list: of all the classes in ascending order, each as often as it was counted (`spread`,
`classAt?_eq_getElem?`). And this list is known. It has as many entries of a class as there are values in
it, and it is sorted, because the counts are kept in order; so it is the sorted values, each replaced by the
bottom of its class (`spread_eq`). *A quantile is answered by the top of the class of the value with its
rank* (`valueAtQuantile_eq`).
-/

namespace LatencyLog

/-! ## Ranks -/

/-- The `k`-th smallest of some naturals, counted from 1. -/
def kthSmallest? (words : List Nat) (k : Nat) : Option Nat := words.mergeSort[k - 1]?

section Ranks

variable {words : List Nat} {k x : Nat}

theorem exists_kthSmallest? (hpos : 1 ≤ k) (hle : k ≤ words.length) :
    ∃ x, kthSmallest? words k = some x := by
  have hlt : k - 1 < words.mergeSort.length := by
    rw [List.length_mergeSort]
    omega
  exact ⟨_, List.getElem?_eq_getElem hlt⟩

theorem mem_of_kthSmallest? (h : kthSmallest? words k = some x) : x ∈ words :=
  List.mem_mergeSort.mp (List.mem_of_getElem? h)

theorem kthSmallest?_le {j y : Nat} (hjk : j ≤ k) (hx : kthSmallest? words j = some x)
    (hy : kthSmallest? words k = some y) : x ≤ y := by
  rcases Nat.eq_or_lt_of_le (Nat.sub_le_sub_right hjk 1) with heq | hlt
  · rw [kthSmallest?, heq] at hx
    exact Nat.le_of_eq (Option.some.inj (hx.symm.trans hy))
  · obtain ⟨hj, rfl⟩ := List.getElem?_eq_some_iff.mp hx
    obtain ⟨hk, rfl⟩ := List.getElem?_eq_some_iff.mp hy
    exact List.pairwise_iff_getElem.mp (List.pairwise_mergeSort' (· ≤ ·) words) _ _ hj hk hlt

/-- What is sorted stays so if none of it changes places. -/
theorem mergeSort_map {f : Nat → Nat} (hf : Monotone f) (words : List Nat) :
    (words.map f).mergeSort = words.mergeSort.map f := by
  refine List.Perm.eq_of_pairwise' (List.pairwise_mergeSort' (· ≤ ·) _) ?_
    ((List.mergeSort_perm _ _).trans ((List.mergeSort_perm _ _).symm.map f))
  exact (List.pairwise_mergeSort' (· ≤ ·) words).map f fun _ _ h => hf h

theorem kthSmallest?_map {f : Nat → Nat} (hf : Monotone f) (words : List Nat) (k : Nat) :
    kthSmallest? (words.map f) k = (kthSmallest? words k).map f := by
  rw [kthSmallest?, mergeSort_map hf, List.getElem?_map]
  rfl

end Ranks

namespace Histogram

/-! ## Counts in order -/

/-- The counts are in ascending order of their classes. -/
def Ascending (counts : List (Nat × Nat)) : Prop := (counts.map Prod.fst).Pairwise (· < ·)

theorem mem_classes_bump {cls c : Nat} {counts : List (Nat × Nat)}
    (h : c ∈ (bump cls counts).map Prod.fst) : c = cls ∨ c ∈ counts.map Prod.fst := by
  induction counts with
  | nil => exact Or.inl (List.mem_singleton.mp h)
  | cons entry rest ih =>
    obtain ⟨d, n⟩ := entry
    rcases Nat.lt_trichotomy cls d with hlt | rfl | hgt
    · rw [bump_of_lt hlt] at h
      exact List.mem_cons.mp h
    · rw [bump_self] at h
      exact Or.inr h
    · rw [bump_of_gt hgt] at h
      rcases List.mem_cons.mp h with rfl | hrest
      · exact Or.inr (List.mem_cons_self ..)
      · exact (ih hrest).imp_right (List.mem_cons_of_mem d)

theorem Ascending.bump {counts : List (Nat × Nat)} (h : Ascending counts) (cls : Nat) :
    Ascending (Histogram.bump cls counts) := by
  induction counts with
  | nil => exact List.pairwise_singleton _ _
  | cons entry rest ih =>
    obtain ⟨d, n⟩ := entry
    obtain ⟨hfirst, hrest⟩ := List.pairwise_cons.mp h
    rcases Nat.lt_trichotomy cls d with hlt | rfl | hgt
    · rw [bump_of_lt hlt]
      refine List.pairwise_cons.mpr ⟨fun c hc => ?_, h⟩
      rcases List.mem_cons.mp hc with rfl | hc
      · exact hlt
      · exact Nat.lt_trans hlt (hfirst c hc)
    · rw [bump_self]
      exact h
    · rw [bump_of_gt hgt]
      refine List.pairwise_cons.mpr ⟨fun c hc => ?_, ih hrest⟩
      rcases mem_classes_bump hc with rfl | hc
      · exact hgt
      · exact hfirst c hc

/-- **Recording keeps the counts in order.** -/
theorem Ascending.extend {h : Histogram} (hasc : Ascending h.counts) (nanos : List Binary64) :
    Ascending (h.extend nanos).counts := by
  induction nanos generalizing h with
  | nil => exact hasc
  | cons x nanos ih =>
    refine ih (h := h.record x) ?_
    unfold record
    split
    · exact hasc.bump _
    · exact hasc

theorem ascending_empty : Ascending empty.counts := List.Pairwise.nil

/-! ## Counts spread out -/

/-- Each class as often as it was counted. -/
def spread (counts : List (Nat × Nat)) : List Nat := counts.flatMap fun e => List.replicate e.2 e.1

theorem spread_cons (c n : Nat) (rest : List (Nat × Nat)) :
    spread ((c, n) :: rest) = List.replicate n c ++ spread rest := List.flatMap_cons ..

/-- **Adding up counts finds a place.** -/
theorem classAt?_eq_getElem? {rank : Nat} (hpos : 1 ≤ rank) (counts : List (Nat × Nat)) :
    classAt? rank counts = (spread counts)[rank - 1]? := by
  induction counts generalizing rank with
  | nil => rfl
  | cons entry rest ih =>
    obtain ⟨c, n⟩ := entry
    rw [classAt?, spread_cons]
    split
    · rw [List.getElem?_append_left (by rw [List.length_replicate]; omega),
        List.getElem?_replicate_of_lt (by omega)]
    · rw [List.getElem?_append_right (by rw [List.length_replicate]; omega), List.length_replicate,
        ih (by omega), Nat.sub_right_comm]

theorem count_spread (counts : List (Nat × Nat)) (cls : Nat) :
    (spread counts).count cls = countIn counts cls := by
  induction counts with
  | nil => rfl
  | cons entry rest ih =>
    obtain ⟨c, n⟩ := entry
    rw [spread_cons, List.count_append, List.count_replicate, ih, countIn]
    simp only [beq_iff_eq]

theorem mem_classes_of_mem_spread {c : Nat} {counts : List (Nat × Nat)} (h : c ∈ spread counts) :
    c ∈ counts.map Prod.fst := by
  obtain ⟨e, he, hc⟩ := List.mem_flatMap.mp h
  rw [List.eq_of_mem_replicate hc]
  exact List.mem_map_of_mem he

theorem pairwise_spread {counts : List (Nat × Nat)} (h : Ascending counts) :
    (spread counts).Pairwise (· ≤ ·) := by
  induction counts with
  | nil => exact List.Pairwise.nil
  | cons entry rest ih =>
    obtain ⟨c, n⟩ := entry
    obtain ⟨hfirst, hrest⟩ := List.pairwise_cons.mp h
    rw [spread_cons]
    refine List.pairwise_append.mpr ⟨?_, ih hrest, fun a ha b hb => ?_⟩
    · exact List.pairwise_replicate.mpr (Or.inr (Nat.le_refl c))
    · rw [List.eq_of_mem_replicate ha]
      exact Nat.le_of_lt (hfirst b (mem_classes_of_mem_spread hb))

/-! ## Classes by rank -/

section Answers

variable {h : Histogram} {words : List Nat}

/-- **Spread out, the counts are the classes of the sorted values.** -/
theorem spread_eq (hold : h.Holds words) (hasc : Ascending h.counts) :
    spread h.counts = words.mergeSort.map LatencyClass.bottom := by
  have hperm : (spread h.counts).Perm (words.map LatencyClass.bottom) := by
    rw [List.perm_iff_count]
    intro cls
    rw [count_spread, hold.classes, List.count, List.countP_map]
    rfl
  have hmono : Monotone LatencyClass.bottom := fun _ _ => LatencyClass.bottom_mono
  rw [← mergeSort_map hmono]
  exact List.Perm.eq_of_pairwise' (pairwise_spread hasc) (List.pairwise_mergeSort' (· ≤ ·) _)
    (hperm.trans (List.mergeSort_perm _ _).symm)

theorem classAt?_eq (hold : h.Holds words) (hasc : Ascending h.counts) {rank : Nat} (hpos : 1 ≤ rank) :
    classAt? rank h.counts = (kthSmallest? words rank).map LatencyClass.bottom := by
  rw [classAt?_eq_getElem? hpos, spread_eq hold hasc, List.getElem?_map, kthSmallest?]

/-- The rank at a quantile of `n` values. -/
def rankAt (q : Binary64) (n : Nat) : Nat := max 1 (q * .ofNat n).ceilWord

/-- **A quantile is answered by the top of the class of the value with its rank.** -/
theorem valueAtQuantile_eq (hold : h.Holds words) (hasc : Ascending h.counts) {q : Binary64}
    (hone : Binary64.one.lt q = false) (hzero : q.eq .zero = false) :
    h.valueAtQuantile q = ((kthSmallest? words (rankAt q words.length)).map LatencyClass.top).getD 0 := by
  have hrank := classAt?_eq hold hasc (Nat.le_max_left 1 (q * .ofNat h.count).ceilWord)
  simp only [valueAtQuantile, hone, Bool.false_eq_true, if_false, hrank, hzero]
  rw [hold.count, rankAt]
  cases kthSmallest? words (max 1 (q * .ofNat words.length).ceilWord) with
  | none => rfl
  | some x => exact LatencyClass.top_bottom x

/-! ## Extremes -/

/-- What is kept beside the counts is the least and the greatest value. -/
theorem exists_extremes (hold : h.Holds words) (hne : words ≠ []) :
    ∃ least greatest, words.min? = some least ∧ words.max? = some greatest ∧
      h.least = LatencyClass.lowEnd least ∧ h.greatest = LatencyClass.highEnd greatest := by
  have hspans := hold.extremes
  unfold Histogram.least Histogram.greatest
  cases hextremes : h.extremes with
  | none =>
    rw [hextremes] at hspans
    exact absurd hspans hne
  | some pair =>
    rw [hextremes] at hspans
    obtain ⟨hleast, hgreatest, hbetween⟩ := hspans
    exact ⟨pair.1, pair.2, List.min?_eq_some_iff.mpr ⟨hleast, fun w hw => (hbetween w hw).1⟩,
      List.max?_eq_some_iff.mpr ⟨hgreatest, fun w hw => (hbetween w hw).2⟩, rfl, rfl⟩

end Answers

end Histogram

end LatencyLog
