import Mathlib.Data.List.Forall2

/-!
# Sorting by a rank, and what fixes the result

A stream is put into the order of time by a merge sort, and a good deal rests on that sort being
stable. What stable means is said here by filtering: *the elements of one rank come out as they went
in* (`filter_rank_mergeSort`). In that form it can be used without ever talking about positions, and
`pairwise_of_filter_rank` leads back to pairs. Since a sorted list is known rank by rank
(`eq_of_filter_rank`), it also says that a sort does not care what else is sorted with it
(`filter_mergeSort`). And lists whose elements stand for one another are sorted alike
(`forall₂_mergeSort`).

The other half is uniqueness. A list in which each element stands in an irreversible relation to all
that follow is determined by its members (`eq_of_pairwise_of_mem_iff`), so two streams are shown to
be one by looking at their order and at their members apart.
-/

namespace LatencyLog

variable {α : Type}

/-! ## Ranks -/

theorem rankLE_trans (rank : α → Nat) (x y z : α) (hxy : decide (rank x ≤ rank y) = true)
    (hyz : decide (rank y ≤ rank z) = true) : decide (rank x ≤ rank z) = true :=
  decide_eq_true (Nat.le_trans (of_decide_eq_true hxy) (of_decide_eq_true hyz))

theorem rankLE_total (rank : α → Nat) (x y : α) :
    (decide (rank x ≤ rank y) || decide (rank y ≤ rank x)) = true := by
  rw [Bool.or_eq_true, decide_eq_true_eq, decide_eq_true_eq]
  exact Nat.le_total _ _

theorem pairwise_rank_mergeSort (rank : α → Nat) (xs : List α) :
    (xs.mergeSort fun x y => decide (rank x ≤ rank y)).Pairwise fun x y => rank x ≤ rank y :=
  (List.pairwise_mergeSort (rankLE_trans rank) (rankLE_total rank) xs).imp of_decide_eq_true

/-- **Elements of one rank come out as they went in.** Among themselves they are in order already,
so the sort has them as a sublist; and there are no more of them behind the sort than before. -/
theorem filter_rank_mergeSort (rank : α → Nat) (n : Nat) (xs : List α) :
    (xs.mergeSort fun x y => decide (rank x ≤ rank y)).filter (fun x => decide (rank x = n)) =
      xs.filter fun x => decide (rank x = n) := by
  have htied : (xs.filter fun x => decide (rank x = n)).Pairwise
      fun x y => decide (rank x ≤ rank y) = true := by
    refine List.pairwise_of_forall_mem_list fun x hx y hy => ?_
    have hxn : rank x = n := of_decide_eq_true (List.mem_filter.mp hx).2
    have hyn : rank y = n := of_decide_eq_true (List.mem_filter.mp hy).2
    exact decide_eq_true (Nat.le_of_eq (hxn.trans hyn.symm))
  have hsub := (List.sublist_mergeSort (rankLE_trans rank) (rankLE_total rank) htied
    List.filter_sublist).filter fun x => decide (rank x = n)
  simp only [List.filter_filter, Bool.and_self] at hsub
  exact (hsub.eq_of_length ((List.mergeSort_perm xs _).filter _).length_eq.symm).symm

/-- What holds between elements of one rank, rank by rank, holds between any two of one rank. -/
theorem pairwise_of_filter_rank {rank : α → Nat} {R : α → α → Prop} {xs : List α}
    (h : ∀ n, (xs.filter fun x => decide (rank x = n)).Pairwise R) :
    xs.Pairwise fun x y => rank x = rank y → R x y := by
  refine List.pairwise_iff_forall_sublist.mpr fun {x y} hsub hxy => ?_
  refine List.pairwise_iff_forall_sublist.mp (h (rank y)) ?_
  have hfilter := hsub.filter fun z => decide (rank z = rank y)
  simpa [hxy] using hfilter

theorem mem_of_filter_rank {rank : α → Nat} {xs ys : List α}
    (h : ∀ n, xs.filter (fun x => decide (rank x = n)) = ys.filter fun x => decide (rank x = n))
    {z : α} (hz : z ∈ xs) : z ∈ ys := by
  have hfilter : z ∈ xs.filter fun x => decide (rank x = rank z) := by simp [hz]
  rw [h] at hfilter
  exact (List.mem_filter.mp hfilter).1

/-- **A sorted list is known rank by rank.** Its first element is the first one of its rank, and that is the
least rank there is. -/
theorem eq_of_filter_rank {rank : α → Nat} {xs ys : List α}
    (hxs : xs.Pairwise fun x y => rank x ≤ rank y) (hys : ys.Pairwise fun x y => rank x ≤ rank y)
    (h : ∀ n, xs.filter (fun x => decide (rank x = n)) = ys.filter fun x => decide (rank x = n)) :
    xs = ys := by
  induction xs generalizing ys with
  | nil =>
    refine (List.eq_nil_iff_forall_not_mem.mpr fun y hy => ?_).symm
    exact List.not_mem_nil (mem_of_filter_rank (fun n => (h n).symm) hy)
  | cons x xs ih =>
    cases ys with
    | nil => exact absurd (mem_of_filter_rank h List.mem_cons_self) List.not_mem_nil
    | cons y ys =>
      have hle : ∀ z ∈ x :: xs, rank x ≤ rank z := by
        simpa using (List.pairwise_cons.mp hxs).1
      have hle' : ∀ z ∈ y :: ys, rank y ≤ rank z := by
        simpa using (List.pairwise_cons.mp hys).1
      -- Each head is in the other list as well, where it is not below that head.
      have hrank : rank x = rank y := by
        apply Nat.le_antisymm
        · exact hle y (mem_of_filter_rank (fun n => (h n).symm) List.mem_cons_self)
        · exact hle' x (mem_of_filter_rank h List.mem_cons_self)
      have hhead : x = y := by
        have hfirst := h (rank x)
        rw [List.filter_cons_of_pos (by simp), List.filter_cons_of_pos (by simp [hrank])] at hfirst
        exact (List.cons.inj hfirst).1
      subst hhead
      congr 1
      refine ih (List.pairwise_cons.mp hxs).2 (List.pairwise_cons.mp hys).2 fun n => ?_
      have hn := h n
      by_cases hx : rank x = n
      · rw [List.filter_cons_of_pos (by simp [hx]), List.filter_cons_of_pos (by simp [hx])] at hn
        exact (List.cons.inj hn).2
      · rw [List.filter_cons_of_neg (by simp [hx]), List.filter_cons_of_neg (by simp [hx])] at hn
        exact hn

/-- **A test can be made before the sort or after it**, as the sort is stable. -/
theorem filter_mergeSort (rank : α → Nat) (p : α → Bool) (xs : List α) :
    (xs.mergeSort fun x y => decide (rank x ≤ rank y)).filter p =
      (xs.filter p).mergeSort fun x y => decide (rank x ≤ rank y) := by
  refine eq_of_filter_rank ((pairwise_rank_mergeSort rank xs).filter p)
    (pairwise_rank_mergeSort rank _) fun n => ?_
  rw [List.filter_comm, filter_rank_mergeSort, filter_rank_mergeSort, List.filter_comm]

/-- What has the rank of an element can be put in its place before the sort or after it. -/
theorem map_rank_mergeSort {β : Type} (rank : α → Nat) (rank' : β → Nat) (f : α → β) {xs : List α}
    (h : ∀ x ∈ xs, rank' (f x) = rank x) :
    (xs.mergeSort fun x y => decide (rank x ≤ rank y)).map f =
      (xs.map f).mergeSort fun x y => decide (rank' x ≤ rank' y) := by
  refine List.map_mergeSort fun x hx y hy => ?_
  rw [h x hx, h y hy]

/-- **Lists in step stay in step**, if what stands for something has its rank. Sort the pairs: either side of
them is then sorted. -/
theorem forall₂_mergeSort {β : Type} {R : α → β → Prop} {rank : α → Nat} {rank' : β → Nat}
    (hR : ∀ x y, R x y → rank x = rank' y) {xs : List α} {ys : List β} (h : List.Forall₂ R xs ys) :
    List.Forall₂ R (xs.mergeSort fun x x' => decide (rank x ≤ rank x'))
      (ys.mergeSort fun y y' => decide (rank' y ≤ rank' y')) := by
  obtain ⟨hlength, hpairs⟩ := List.forall₂_iff_zip.mp h
  have hleft := map_rank_mergeSort (fun p : α × β => rank p.1) rank Prod.fst
    fun p (_ : p ∈ xs.zip ys) => rfl
  have hright := map_rank_mergeSort (fun p : α × β => rank p.1) rank' Prod.snd
    fun p (hp : p ∈ xs.zip ys) => (hR p.1 p.2 (hpairs hp)).symm
  rw [List.map_fst_zip (Nat.le_of_eq hlength)] at hleft
  rw [List.map_snd_zip (Nat.le_of_eq hlength.symm)] at hright
  rw [← hleft, ← hright, List.forall₂_map_left_iff, List.forall₂_map_right_iff, List.forall₂_same]
  intro p hp
  exact hpairs (List.mem_mergeSort.mp hp)

/-! ## Order and members -/

/-- An irreversible order leaves a list no freedom but its members. -/
theorem eq_of_pairwise_of_mem_iff {R : α → α → Prop} (hR : ∀ x y, R x y → ¬ R y x) {xs ys : List α}
    (hxs : xs.Pairwise R) (hys : ys.Pairwise R) (hmem : ∀ x, x ∈ xs ↔ x ∈ ys) : xs = ys := by
  have hnodup : ∀ zs : List α, zs.Pairwise R → zs.Nodup := by
    intro zs hzs
    refine hzs.imp fun {x y} hxy heq => ?_
    subst heq
    exact hR x x hxy hxy
  refine List.Perm.eq_of_pairwise (fun x y _ _ hxy hyx => absurd hyx (hR x y hxy)) hxs hys ?_
  exact (List.perm_ext_iff_of_nodup (hnodup xs hxs) (hnodup ys hys)).mpr hmem

end LatencyLog
