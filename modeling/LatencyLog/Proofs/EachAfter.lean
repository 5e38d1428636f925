import Mathlib.Data.List.Induction
import Mathlib.Data.List.Forall2

/-!
# What elements give after those before them

A pass over a list that remembers something gives, at each element, what a function of the element and
of *everything before it* gives: `eachAfter` is that, said by positions and without a state. It is the
second side of every statement about a pass in this library, and three things about it are proved here,
once for all passes:

* a pass is `eachAfter` of a function as soon as it starts with nothing and one more element adds what
  the function says (`eq_eachAfter`);
* what comes out stands in the order of the elements, and none of them gives two things
  (`eachAfter_placed`);
* what comes out can be traced to an element and to the elements before it (`mem_eachAfter_iff`), and
  counted through them (`length_eachAfter_le_add`).
-/

namespace LatencyLog

variable {α β γ δ : Type}

/-- What the elements of a list give, one by one, each seen with those before it. -/
def eachAfter (f : List α → α → Option β) (xs : List α) : List β :=
  (List.range xs.length).filterMap fun i => xs[i]?.bind fun x => f (xs.take i) x

/-! ## The equations -/

@[simp]
theorem eachAfter_nil (f : List α → α → Option β) : eachAfter f [] = [] := rfl

theorem eachAfter_concat (f : List α → α → Option β) (xs : List α) (x : α) :
    eachAfter f (xs ++ [x]) = eachAfter f xs ++ (f xs x).toList := by
  unfold eachAfter
  rw [List.length_append, List.length_singleton, List.range_succ, List.filterMap_append]
  congr 1
  · refine List.filterMap_congr fun i hi => ?_
    have hlt : i < xs.length := List.mem_range.mp hi
    rw [List.getElem?_append_left hlt, List.take_append_of_le_length (Nat.le_of_lt hlt)]
  · rw [List.filterMap_cons, List.getElem?_concat_length, List.take_left, Option.bind_some]
    cases f xs x <;> rfl

/-- **A pass is known by what one more element adds.** -/
theorem eq_eachAfter {f : List α → α → Option β} {pass : List α → List β} (hnil : pass [] = [])
    (hconcat : ∀ xs x, pass (xs ++ [x]) = pass xs ++ (f xs x).toList) (xs : List α) :
    pass xs = eachAfter f xs := by
  induction xs using List.reverseRecOn with
  | nil => rw [hnil, eachAfter_nil]
  | append_singleton xs x ih => rw [hconcat, eachAfter_concat, ih]

/-! ## Where a result comes from -/

theorem eq_take_append_cons_drop {xs : List α} {i : Nat} (hi : i < xs.length) :
    xs = xs.take i ++ xs[i] :: xs.drop (i + 1) := by
  rw [← List.drop_eq_getElem_cons hi, List.take_append_drop]

/-- **What functions give that agree on each element and what is before it.** -/
theorem eachAfter_congr {f g : List α → α → Option β} {xs : List α}
    (h : ∀ earlier x later, xs = earlier ++ x :: later → f earlier x = g earlier x) :
    eachAfter f xs = eachAfter g xs := by
  refine List.filterMap_congr fun i hi => ?_
  have hlt : i < xs.length := List.mem_range.mp hi
  rw [List.getElem?_eq_getElem hlt, Option.bind_some, Option.bind_some]
  exact h _ _ _ (eq_take_append_cons_drop hlt)

theorem mem_eachAfter_iff {f : List α → α → Option β} {xs : List α} {y : β} :
    y ∈ eachAfter f xs ↔ ∃ earlier x later, xs = earlier ++ x :: later ∧ f earlier x = some y := by
  constructor
  · intro hy
    obtain ⟨i, hi, hiy⟩ := List.mem_filterMap.mp hy
    have hlt : i < xs.length := List.mem_range.mp hi
    rw [List.getElem?_eq_getElem hlt, Option.bind_some] at hiy
    exact ⟨xs.take i, xs[i], xs.drop (i + 1), eq_take_append_cons_drop hlt, hiy⟩
  · rintro ⟨earlier, x, later, rfl, hfx⟩
    refine List.mem_filterMap.mpr ⟨earlier.length, List.mem_range.mpr ?_, ?_⟩
    · rw [List.length_append, List.length_cons]
      omega
    · rw [List.getElem?_append_right (Nat.le_refl _), Nat.sub_self, List.getElem?_cons_zero,
        List.take_left, Option.bind_some, hfx]

/-- The elements that a partial function is defined on give its results, one each. -/
theorem filterMap_sources (f : α → Option β) (xs : List α) :
    ∃ sources, sources.Sublist xs ∧
      List.Forall₂ (fun x y => f x = some y) sources (xs.filterMap f) := by
  induction xs with
  | nil => exact ⟨[], List.Sublist.refl _, List.Forall₂.nil⟩
  | cons x xs ih =>
    obtain ⟨sources, hsub, hgive⟩ := ih
    cases hx : f x with
    | none =>
      rw [List.filterMap_cons_none hx]
      exact ⟨sources, hsub.cons x, hgive⟩
    | some y =>
      rw [List.filterMap_cons_some hx]
      exact ⟨x :: sources, hsub.cons_cons x, List.Forall₂.cons hx hgive⟩

/-- **Results stand in the order of their elements, and no element gives two.** -/
theorem eachAfter_placed (f : List α → α → Option β) (xs : List α) :
    ∃ places : List Nat, places.Pairwise (· < ·) ∧
      List.Forall₂ (fun i y => ∃ x, xs[i]? = some x ∧ f (xs.take i) x = some y) places
        (eachAfter f xs) := by
  obtain ⟨places, hsub, hgive⟩ :=
    filterMap_sources (fun i => xs[i]?.bind fun x => f (xs.take i) x) (List.range xs.length)
  refine ⟨places, List.pairwise_lt_range.sublist hsub, hgive.imp fun i y hiy => ?_⟩
  exact Option.bind_eq_some_iff.mp hiy

/-- Elements that give something give one of two other things, so there are no more of the first than
of the other two together. -/
theorem length_eachAfter_le_add {f : List α → α → Option β} {g : List α → α → Option γ}
    {k : List α → α → Option δ}
    (h : ∀ earlier x, (f earlier x).isSome → (g earlier x).isSome ∨ (k earlier x).isSome)
    (xs : List α) :
    (eachAfter f xs).length ≤ (eachAfter g xs).length + (eachAfter k xs).length := by
  induction xs using List.reverseRecOn with
  | nil => exact Nat.zero_le _
  | append_singleton xs x ih =>
    have hx : (f xs x).toList.length ≤ (g xs x).toList.length + (k xs x).toList.length := by
      have hsome := h xs x
      cases hf : f xs x with
      | none => exact Nat.zero_le _
      | some y =>
        rw [hf] at hsome
        rcases hsome rfl with hg | hk
        · obtain ⟨z, hz⟩ := Option.isSome_iff_exists.mp hg
          rw [hz]
          exact Nat.le_add_right _ _
        · obtain ⟨z, hz⟩ := Option.isSome_iff_exists.mp hk
          rw [hz]
          exact Nat.le_add_left _ _
    simp only [eachAfter_concat, List.length_append]
    omega

end LatencyLog
