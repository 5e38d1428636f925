import LatencyLog.Store
import Mathlib.Data.List.Forall2

/-!
# What is left when only first occurrences stay

`firstOccurrences` runs through a list with a hash set of the keys it has met. Nothing in a proof
about streams should have to look at that set, so it is spent here, once: `firstOccurrences_cons`
says what the function does in terms of lists alone, and everything behind it is an induction on
that equation.

Three of its consequences are what the theory of streams runs on:

* for each key, what is left is the first element with that key and nothing else
  (`filter_key_firstOccurrences`);
* what is left stands in the order in which its keys first occurred
  (`firstOccurrences_pairwise_findIdx`);
* a test that looks at keys only can be made before or after (`filter_firstOccurrences`), so what
  comes behind a list adds just the keys that the list does not have (`firstOccurrences_append`),
  and what comes behind it again adds nothing (`firstOccurrences_flatMap_eraseDupsBy`).

Where each element stands for another thing, and keys are equal as the things are, what is left stands for
the things without their repetitions (`forall₂_firstOccurrences`).
-/

namespace LatencyLog

variable {α κ : Type} [DecidableEq κ] [Hashable κ] {key : α → κ}

/-! ## The equation -/

/-- The fold, from any state it can be in: what it adds are the first occurrences among the elements
whose keys it has not met. -/
theorem firstOccurrences_foldl (xs : List α) (seen : Std.HashSet κ) (out : Array α) :
    (xs.foldl
      (fun (state : Std.HashSet κ × Array α) x =>
        if state.1.contains (key x) then state
        else (state.1.insert (key x), state.2.push x))
      (seen, out)).2.toList =
      out.toList ++ (xs.filter fun x => !seen.contains (key x)).eraseDupsBy
        fun x y => key x == key y := by
  induction xs generalizing seen out with
  | nil => simp
  | cons x xs ih =>
    rw [List.foldl_cons]
    by_cases hx : seen.contains (key x) = true
    · rw [if_pos hx, ih, List.filter_cons_of_neg (by simp [hx])]
    · rw [if_neg hx, ih, List.filter_cons_of_pos (by simp [hx]), List.eraseDupsBy_cons]
      rw [Array.toList_push, List.append_assoc, List.singleton_append, List.filter_filter]
      -- The elements that the greater set lets through are those that `x` does not repeat.
      congr 3
      refine List.filter_congr fun y _ => ?_
      rw [Std.HashSet.contains_insert]
      by_cases hy : key x = key y
      · simp [hy]
      · simp [hy, Ne.symm hy]

theorem firstOccurrences_eq_eraseDupsBy (xs : List α) :
    firstOccurrences key xs = xs.eraseDupsBy fun x y => key x == key y := by
  unfold firstOccurrences
  rw [firstOccurrences_foldl, List.filter_eq_self.mpr (by simp)]
  rfl

@[simp]
theorem firstOccurrences_nil : firstOccurrences key ([] : List α) = [] := by
  rw [firstOccurrences_eq_eraseDupsBy, List.eraseDupsBy_nil]

/-- **The first element stays, and whatever has its key goes.** -/
theorem firstOccurrences_cons (x : α) (xs : List α) :
    firstOccurrences key (x :: xs) =
      x :: firstOccurrences key (xs.filter fun y => decide (key y ≠ key x)) := by
  rw [firstOccurrences_eq_eraseDupsBy, firstOccurrences_eq_eraseDupsBy, List.eraseDupsBy_cons]
  congr 2
  refine List.filter_congr fun y _ => ?_
  by_cases hy : key y = key x <;> simp [hy]

/-! ## Tests on keys -/

/-- A test that elements of one key pass together may as well be made on what is left. -/
theorem filter_firstOccurrences {p : α → Bool} (hp : ∀ x y, key x = key y → p x = p y) :
    ∀ xs : List α, (firstOccurrences key xs).filter p = firstOccurrences key (xs.filter p)
  | [] => by simp
  | x :: xs => by
    have ih := filter_firstOccurrences hp (xs.filter fun y => decide (key y ≠ key x))
    rw [firstOccurrences_cons]
    by_cases hx : p x = true
    · rw [List.filter_cons_of_pos hx, List.filter_cons_of_pos hx, firstOccurrences_cons, ih,
        List.filter_filter, List.filter_filter]
      simp only [Bool.and_comm]
    · rw [List.filter_cons_of_neg hx, List.filter_cons_of_neg hx, ih, List.filter_filter]
      -- Whatever has the key of `x` fails the test as `x` does.
      congr 1
      refine List.filter_congr fun y _ => ?_
      by_cases hy : key y = key x
      · simp [hp y x hy, hx]
      · simp [hy]
termination_by xs => xs.length
decreasing_by exact Nat.lt_succ_of_le (List.length_filter_le _ _)

/-- The equation again, with the test behind: this is the one to do inductions with. -/
theorem firstOccurrences_cons_eq_filter (x : α) (xs : List α) :
    firstOccurrences key (x :: xs) =
      x :: (firstOccurrences key xs).filter fun y => decide (key y ≠ key x) := by
  rw [firstOccurrences_cons, filter_firstOccurrences]
  intro y z h
  rw [h]

/-! ## What is left -/

theorem firstOccurrences_sublist (xs : List α) : (firstOccurrences key xs).Sublist xs := by
  induction xs with
  | nil => simp
  | cons x xs ih =>
    rw [firstOccurrences_cons_eq_filter]
    exact (List.filter_sublist.trans ih).cons_cons x

/-- Something is left of anything. -/
theorem firstOccurrences_eq_nil_iff {xs : List α} : firstOccurrences key xs = [] ↔ xs = [] := by
  cases xs with
  | nil => simp
  | cons x xs => simp [firstOccurrences_cons]

/-- No key is left twice. -/
theorem firstOccurrences_pairwise_key_ne (xs : List α) :
    (firstOccurrences key xs).Pairwise fun x y => key x ≠ key y := by
  induction xs with
  | nil => simp
  | cons x xs ih =>
    rw [firstOccurrences_cons_eq_filter]
    refine List.Pairwise.cons (fun y hy => ?_) (ih.filter _)
    have hne := (List.mem_filter.mp hy).2
    exact fun h => of_decide_eq_true hne h.symm

/-- **Of each key the first element is left, and it alone.** -/
theorem filter_key_firstOccurrences (k : κ) (xs : List α) :
    (firstOccurrences key xs).filter (fun x => decide (key x = k)) =
      (xs.find? fun x => decide (key x = k)).toList := by
  induction xs with
  | nil => simp
  | cons x xs ih =>
    rw [firstOccurrences_cons_eq_filter]
    by_cases hx : key x = k
    · rw [List.filter_cons_of_pos (by simp [hx]), List.find?_cons_of_pos (by simp [hx]),
        List.filter_filter, List.filter_eq_nil_iff.mpr (fun y _ => by simp [hx]), Option.toList_some]
    · rw [List.filter_cons_of_neg (by simp [hx]), List.find?_cons_of_neg (by simp [hx]), ← ih,
        List.filter_filter]
      refine List.filter_congr fun y _ => ?_
      by_cases hy : key y = k
      · simp [hy, Ne.symm hx]
      · simp [hy]

/-- No key is lost. -/
theorem mem_map_key_firstOccurrences {k : κ} {xs : List α} :
    k ∈ (firstOccurrences key xs).map key ↔ k ∈ xs.map key := by
  constructor
  · intro h
    exact ((firstOccurrences_sublist xs).map key).subset h
  · intro h
    obtain ⟨x, hx, hkey⟩ := List.mem_map.mp h
    have hfound : (xs.find? fun y => decide (key y = k)).isSome = true :=
      List.find?_isSome.mpr ⟨x, hx, decide_eq_true hkey⟩
    obtain ⟨first, hfirst⟩ := Option.isSome_iff_exists.mp hfound
    have hmem : first ∈ (firstOccurrences key xs).filter fun y => decide (key y = k) := by
      rw [filter_key_firstOccurrences, hfirst]
      exact List.mem_singleton_self first
    obtain ⟨hleft, htest⟩ := List.mem_filter.mp hmem
    exact List.mem_map.mpr ⟨first, hleft, of_decide_eq_true htest⟩

/-- Where no key comes twice, everything is left. -/
theorem firstOccurrences_of_pairwise {xs : List α} (h : xs.Pairwise fun x y => key x ≠ key y) :
    firstOccurrences key xs = xs := by
  induction xs with
  | nil => simp
  | cons x xs ih =>
    obtain ⟨hx, hxs⟩ := List.pairwise_cons.mp h
    rw [firstOccurrences_cons_eq_filter, ih hxs, List.filter_eq_self.mpr]
    intro y hy
    exact decide_eq_true (hx y hy).symm

/-- What is left stands in the order in which its keys first occurred. -/
theorem firstOccurrences_pairwise_findIdx (xs : List α) :
    (firstOccurrences key xs).Pairwise fun x y =>
      xs.findIdx (fun z => decide (key z = key x)) < xs.findIdx (fun z => decide (key z = key y)) := by
  induction xs with
  | nil => simp
  | cons x xs ih =>
    rw [firstOccurrences_cons_eq_filter]
    -- Behind `x` stands nothing with its key, so there each place counts one more than in `xs`.
    have hplace : ∀ y ∈ (firstOccurrences key xs).filter (fun y => decide (key y ≠ key x)),
        (x :: xs).findIdx (fun z => decide (key z = key y)) =
          xs.findIdx (fun z => decide (key z = key y)) + 1 := by
      intro y hy
      have hne : key y ≠ key x := of_decide_eq_true (List.mem_filter.mp hy).2
      rw [List.findIdx_cons, decide_eq_false (Ne.symm hne), cond_false]
    refine List.Pairwise.cons (fun y hy => ?_) ?_
    · rw [hplace y hy, List.findIdx_cons, decide_eq_true rfl, cond_true]
      exact Nat.succ_pos _
    · refine (ih.filter _).imp_of_mem fun {y z} hy hz hyz => ?_
      rw [hplace y hy, hplace z hz]
      exact Nat.succ_lt_succ hyz

/-! ## Lists one behind the other -/

/-- What comes behind a list adds the keys that the list does not have. -/
theorem firstOccurrences_append (xs ys : List α) :
    firstOccurrences key (xs ++ ys) =
      firstOccurrences key xs ++
        (firstOccurrences key ys).filter fun y => decide (key y ∉ xs.map key) := by
  induction xs with
  | nil => simp [List.filter_eq_self.mpr]
  | cons x xs ih =>
    rw [List.cons_append, firstOccurrences_cons_eq_filter, firstOccurrences_cons_eq_filter, ih,
      List.filter_append, List.filter_filter, List.cons_append]
    congr 2
    refine List.filter_congr fun y _ => ?_
    simp [not_or]

/-- Blocks without elements may be left out. -/
theorem flatMap_filter_of_eq_nil {β : Type} {keep : β → Bool} {block : β → List α} (bs : List β)
    (h : ∀ b ∈ bs, keep b = false → block b = []) :
    (bs.filter keep).flatMap block = bs.flatMap block := by
  induction bs with
  | nil => rfl
  | cons b bs ih =>
    have ih := ih fun c hc => h c (List.mem_cons_of_mem b hc)
    by_cases hb : keep b = true
    · rw [List.filter_cons_of_pos hb, List.flatMap_cons, List.flatMap_cons, ih]
    · rw [List.filter_cons_of_neg hb, List.flatMap_cons, ih,
        h b (List.mem_cons_self ..) (Bool.eq_false_iff.mpr hb), List.nil_append]

/-- **A block that comes again adds nothing**, wherever it comes again. -/
theorem firstOccurrences_flatMap_eraseDupsBy {β : Type} {same : β → β → Bool} {block : β → List α}
    (h : ∀ b c, same b c = true → block b = block c) :
    ∀ bs : List β, firstOccurrences key ((bs.eraseDupsBy same).flatMap block) =
      firstOccurrences key (bs.flatMap block)
  | [] => rfl
  | b :: bs => by
    have ih := firstOccurrences_flatMap_eraseDupsBy h (bs.filter fun c => same c b = false)
    rw [List.eraseDupsBy_cons, List.flatMap_cons, List.flatMap_cons, firstOccurrences_append,
      firstOccurrences_append, ih]
    congr 1
    -- Only keys that the block of `b` does not have count from here on, and no copy of it has others.
    have hkeys : ∀ x y : α, key x = key y →
        decide (key x ∉ (block b).map key) = decide (key y ∉ (block b).map key) := by
      intro x y hxy
      rw [hxy]
    rw [filter_firstOccurrences hkeys, filter_firstOccurrences hkeys, List.filter_flatMap,
      List.filter_flatMap]
    congr 1
    refine flatMap_filter_of_eq_nil bs fun c _ hc => ?_
    have hcopy : block c = block b := h c b (by simpa using hc)
    rw [hcopy]
    refine List.filter_eq_nil_iff.mpr fun x hx => ?_
    simpa using ⟨x, hx, rfl⟩
termination_by bs => bs.length
decreasing_by exact Nat.lt_succ_of_le (List.length_filter_le _ _)

/-! ## Lists in step -/

/-- **Keys do what equality does to what the elements stand for.** -/
theorem forall₂_firstOccurrences {β : Type} [DecidableEq β] {R : α → β → Prop}
    (hR : ∀ x x' y y', R x y → R x' y' → (key x = key x' ↔ y = y')) :
    ∀ {xs : List α} {ys : List β}, List.Forall₂ R xs ys →
      List.Forall₂ R (firstOccurrences key xs) ys.eraseDups
  | _, _, .nil => by
    rw [firstOccurrences_nil, List.eraseDups_nil]
    exact .nil
  | x :: xs, y :: ys, .cons hxy h => by
    have hrest : List.Forall₂ R (xs.filter fun x' => decide (key x' ≠ key x))
        (ys.filter fun y' => !y' == y) := by
      refine List.rel_filter (fun x' y' hxy' => ?_) h
      simp [hR x' x y' y hxy' hxy]
    rw [firstOccurrences_cons, List.eraseDups_cons]
    exact .cons hxy (forall₂_firstOccurrences hR hrest)
termination_by xs => xs.length
decreasing_by exact Nat.lt_succ_of_le (List.length_filter_le _ _)

end LatencyLog
