import Mathlib.Data.List.Forall2

/-!
# Results one by one

What goes over a list and can fail has a result if every element has one, and then it is made of those
(`mapM_eq_ok_iff`). So the elements and their results are said to stand side by side, by `Forall₂`.
-/

namespace LatencyLog

variable {α β ε : Type} {f : α → Except ε β} {xs : List α}

theorem mapM_eq_ok_iff {ys : List β} :
    xs.mapM f = .ok ys ↔ List.Forall₂ (fun x y => f x = .ok y) xs ys := by
  induction xs generalizing ys with
  | nil =>
    rw [List.mapM_nil, List.forall₂_nil_left_iff]
    exact ⟨fun h => (Except.ok.inj h).symm, fun h => congrArg Except.ok h.symm⟩
  | cons x xs ih =>
    rw [List.mapM_cons, List.forall₂_cons_left_iff]
    cases hx : f x with
    | error e =>
      refine iff_of_false (fun h => nomatch h) ?_
      rintro ⟨_, _, h, _⟩
      cases h
    | ok y =>
      cases hxs : xs.mapM f with
      | error e =>
        refine iff_of_false (fun h => nomatch h) ?_
        rintro ⟨_, _, _, h, _⟩
        rw [← ih, hxs] at h
        cases h
      | ok ys' =>
        constructor
        · intro h
          exact ⟨y, ys', rfl, ih.mp hxs, (Except.ok.inj h).symm⟩
        · rintro ⟨y', _, hy, h, rfl⟩
          rw [← ih, hxs] at h
          cases hy
          cases h
          rfl

theorem exists_right_of_mem {r : α → β → Prop} {ys : List β}
    (h : List.Forall₂ r xs ys) {x : α} (hx : x ∈ xs) : ∃ y ∈ ys, r x y := by
  induction h with
  | nil => cases hx
  | cons hxy _ ih =>
    rcases List.mem_cons.mp hx with rfl | hx
    · exact ⟨_, List.mem_cons_self .., hxy⟩
    · obtain ⟨y, hy, hr⟩ := ih hx
      exact ⟨y, List.mem_cons_of_mem _ hy, hr⟩

end LatencyLog
