import LatencyLog.Text.Lines

/-!
# Cutting what is put together

Where a text is cut depends on the elements that end a piece and on nothing around them. So two texts
put together are cut as each of them is (`cutAfter_append`), provided that the first leaves no piece
open: the open one would go on into the second. `Closed` is that proviso.

A piece has one such element at most, and as its last, so the pieces are counted by counting these, and
one more where the last piece is open (`length_cutAfter`).
-/

namespace LatencyLog.Text

variable {α : Type} {ends : α → Bool}

/-- No piece is left open at the end. -/
def Closed (ends : α → Bool) (xs : List α) : Prop := ∀ x, xs.getLast? = some x → ends x = true

theorem closed_nil : Closed ends [] := by
  intro x hx
  cases hx

theorem closed_singleton {x : α} : Closed ends [x] ↔ ends x = true := by
  constructor
  · intro h
    exact h x rfl
  · intro h y hy
    cases hy
    exact h

theorem closed_cons_cons {x y : α} {xs : List α} :
    Closed ends (x :: y :: xs) ↔ Closed ends (y :: xs) := by
  rw [Closed, Closed, List.getLast?_cons_cons]

/-! ## Pieces of a whole -/

@[simp]
theorem cutAfter_nil : cutAfter ends [] = [] := rfl

theorem cutAfter_cons_of_ends {x : α} (h : ends x = true) (xs : List α) :
    cutAfter ends (x :: xs) = [x] :: cutAfter ends xs := by
  rw [cutAfter_cons, if_pos h]

theorem cutAfter_ne_nil (ends : α → Bool) {xs : List α} (h : xs ≠ []) : cutAfter ends xs ≠ [] := by
  intro hcut
  have hflat := flatten_cutAfter ends xs
  rw [hcut] at hflat
  exact h hflat.symm

/-- An element that ends nothing joins the first piece behind it. -/
theorem cutAfter_cons_of_cut {x : α} {xs piece : List α} {rest : List (List α)}
    (h : ¬ ends x = true) (hcut : cutAfter ends xs = piece :: rest) :
    cutAfter ends (x :: xs) = (x :: piece) :: rest := by
  rw [cutAfter_cons, if_neg h, hcut]

/-- **What leaves no piece open is cut by itself.** -/
theorem cutAfter_append {xs : List α} (h : Closed ends xs) (ys : List α) :
    cutAfter ends (xs ++ ys) = cutAfter ends xs ++ cutAfter ends ys := by
  induction xs with
  | nil => rfl
  | cons x xs ih =>
    by_cases hx : ends x = true
    · rw [List.cons_append, cutAfter_cons_of_ends hx, cutAfter_cons_of_ends hx, List.cons_append]
      congr 1
      cases xs with
      | nil => rfl
      | cons y xs => exact ih (closed_cons_cons.mp h)
    · cases xs with
      | nil => exact absurd (closed_singleton.mp h) hx
      | cons y xs =>
        obtain ⟨piece, rest, hcut⟩ := List.exists_cons_of_ne_nil
          (cutAfter_ne_nil ends (List.cons_ne_nil y xs))
        have htail : cutAfter ends (y :: xs ++ ys) = piece :: (rest ++ cutAfter ends ys) := by
          rw [ih (closed_cons_cons.mp h), hcut, List.cons_append]
        rw [List.cons_append, cutAfter_cons_of_cut hx htail, cutAfter_cons_of_cut hx hcut,
          List.cons_append]

/-- What has nothing in it that ends a piece is one piece, if it is anything. -/
theorem cutAfter_of_open {xs : List α} (hne : xs ≠ []) (h : ∀ x ∈ xs, ends x = false) :
    cutAfter ends xs = [xs] := by
  induction xs with
  | nil => exact absurd rfl hne
  | cons x xs ih =>
    have hx : ¬ ends x = true := by
      rw [h x (List.mem_cons_self ..)]
      exact Bool.false_ne_true
    cases xs with
    | nil => rw [cutAfter_cons, if_neg hx, cutAfter_nil]
    | cons y xs =>
      have htail := ih (List.cons_ne_nil y xs) fun z hz => h z (List.mem_cons_of_mem x hz)
      rw [cutAfter_cons_of_cut hx htail]

/-- With an element behind it that ends a piece, it is one piece as well. -/
theorem cutAfter_concat_of_ends {xs : List α} {z : α} (h : ∀ x ∈ xs, ends x = false)
    (hz : ends z = true) : cutAfter ends (xs ++ [z]) = [xs ++ [z]] := by
  induction xs with
  | nil => exact cutAfter_cons_of_ends hz []
  | cons x xs ih =>
    have hx : ¬ ends x = true := by
      rw [h x (List.mem_cons_self ..)]
      exact Bool.false_ne_true
    exact cutAfter_cons_of_cut hx (ih fun y hy => h y (List.mem_cons_of_mem x hy))

/-- What is cut at an element and does not have it is open. -/
theorem open_of_not_mem [BEq α] [LawfulBEq α] {z : α} {xs : List α} (h : z ∉ xs) :
    ∀ x ∈ xs, (x == z) = false := by
  intro x hx
  refine beq_eq_false_iff_ne.mpr ?_
  rintro rfl
  exact h hx

/-- The first element that ends a piece ends the first piece, and behind it the text is cut anew. -/
theorem cutAfter_append_cons {xs : List α} {z : α} (h : ∀ x ∈ xs, ends x = false) (hz : ends z = true)
    (ys : List α) : cutAfter ends (xs ++ z :: ys) = (xs ++ [z]) :: cutAfter ends ys := by
  have hclosed : Closed ends (xs ++ [z]) := by
    intro x hx
    rw [List.getLast?_concat] at hx
    cases hx
    exact hz
  rw [List.append_cons, cutAfter_append hclosed, cutAfter_concat_of_ends h hz,
    List.singleton_append]

/-! ## How many pieces there are -/

instance (ends : α → Bool) (xs : List α) : Decidable (Closed ends xs) :=
  match h : xs.getLast? with
  | none => isTrue fun x hx => by rw [h] at hx; cases hx
  | some x =>
    decidable_of_iff (ends x = true)
      ⟨fun hx y hy => by rw [h] at hy; cases hy; exact hx, fun hclosed => hclosed x h⟩

/-- **Each piece is ended once, but for an open one at the end.** -/
theorem length_cutAfter (xs : List α) :
    (cutAfter ends xs).length = xs.countP ends + if Closed ends xs then 0 else 1 := by
  induction xs with
  | nil => rw [cutAfter_nil, if_pos closed_nil]; rfl
  | cons x xs ih =>
    cases xs with
    | nil =>
      by_cases hx : ends x = true
      · rw [cutAfter_cons_of_ends hx, if_pos (closed_singleton.mpr hx)]
        simp [hx]
      · rw [cutAfter_cons, if_neg hx, if_neg fun h => hx (closed_singleton.mp h)]
        simp [hx]
    | cons y xs =>
      simp only [closed_cons_cons]
      by_cases hx : ends x = true
      · rw [cutAfter_cons_of_ends hx, List.length_cons, ih, List.countP_cons_of_pos hx]
        omega
      · obtain ⟨piece, rest, hcut⟩ := List.exists_cons_of_ne_nil
          (cutAfter_ne_nil ends (List.cons_ne_nil y xs))
        rw [cutAfter_cons_of_cut hx hcut, List.length_cons, List.countP_cons_of_neg hx, ← ih, hcut,
          List.length_cons]

end LatencyLog.Text
