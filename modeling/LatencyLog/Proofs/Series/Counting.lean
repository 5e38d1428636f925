import LatencyLog.Proofs.Binary64.Comparison
import LatencyLog.Series.Histogram
import Mathlib.Data.List.Basic

/-!
# What a histogram holds

A histogram keeps counts by class, so it cannot be asked for its values; it can be asked how many there
were of each class. `Histogram.Holds` says that some values are in it and nothing else is: their number,
how many of them are in each class, and that the extremes are two of them with all others in between.
Recording one more value keeps that, with the value added (`Holds.recordWord`), so a histogram holds
what was recorded in it (`holds_extend`).

Not all that is offered is recorded: a negative number or one that is not finite is passed over. A usable
value is neither (`word?_of_isUsable`).
-/

namespace LatencyLog.Histogram

/-! ## Counts of a class -/

theorem bump_of_lt {cls c : Nat} (h : cls < c) (n : Nat) (rest : List (Nat × Nat)) :
    bump cls ((c, n) :: rest) = (cls, 1) :: (c, n) :: rest := if_pos h

theorem bump_self (c n : Nat) (rest : List (Nat × Nat)) :
    bump c ((c, n) :: rest) = (c, n + 1) :: rest := by
  rw [bump, if_neg (Nat.lt_irrefl c), if_pos rfl]

theorem bump_of_gt {cls c : Nat} (h : c < cls) (n : Nat) (rest : List (Nat × Nat)) :
    bump cls ((c, n) :: rest) = (c, n) :: bump cls rest := by
  rw [bump, if_neg (Nat.lt_asymm h), if_neg (Nat.ne_of_gt h)]

/-- The number of values counted in a class. -/
def countIn : (counts : List (Nat × Nat)) → (cls : Nat) → Nat
  | [], _ => 0
  | (c, n) :: rest, cls => (if c = cls then n else 0) + countIn rest cls

/-- One more in a class is one more there and nowhere else. -/
theorem countIn_bump (cls : Nat) (counts : List (Nat × Nat)) (cls' : Nat) :
    countIn (bump cls counts) cls' = countIn counts cls' + if cls = cls' then 1 else 0 := by
  induction counts with
  | nil => simp only [bump, countIn, Nat.zero_add, Nat.add_zero]
  | cons entry rest ih =>
    obtain ⟨c, n⟩ := entry
    unfold bump
    split
    · rw [countIn, Nat.add_comm]
    · split
      · rename_i hcls
        subst hcls
        rw [countIn, countIn]
        split <;> omega
      · rw [countIn, countIn, ih]
        omega

/-! ## Values in a histogram -/

/-- The extremes are two of the values with all others in between. -/
def Spans (words : List Nat) : (extremes : Option (Nat × Nat)) → Prop
  | none => words = []
  | some (least, greatest) =>
    least ∈ words ∧ greatest ∈ words ∧ ∀ w ∈ words, least ≤ w ∧ w ≤ greatest

theorem Spans.widen {words : List Nat} {extremes : Option (Nat × Nat)} (h : Spans words extremes)
    (v : Nat) : Spans (words ++ [v]) (some (Histogram.widen v extremes)) := by
  cases extremes with
  | none =>
    obtain rfl : words = [] := h
    simp [Spans, Histogram.widen]
  | some pair =>
    obtain ⟨hleast, hgreatest, hbetween⟩ := h
    refine ⟨?_, ?_, ?_⟩
    · rcases Nat.le_total pair.1 v with hle | hle
      · rw [Nat.min_eq_left hle]
        exact List.mem_append_left _ hleast
      · rw [Nat.min_eq_right hle]
        exact List.mem_append_right _ (List.mem_singleton_self v)
    · rcases Nat.le_total pair.2 v with hle | hle
      · rw [Nat.max_eq_right hle]
        exact List.mem_append_right _ (List.mem_singleton_self v)
      · rw [Nat.max_eq_left hle]
        exact List.mem_append_left _ hgreatest
    · intro w hw
      rcases List.mem_append.mp hw with hw | hw
      · obtain ⟨hl, hg⟩ := hbetween w hw
        omega
      · obtain rfl := List.mem_singleton.mp hw
        omega

/-- Some values, and nothing else, are in a histogram. -/
structure Holds (h : Histogram) (words : List Nat) : Prop where
  count : h.count = words.length
  /-- Each class counts the values that are in it. -/
  classes : ∀ cls, countIn h.counts cls = words.countP fun w => decide (LatencyClass.bottom w = cls)
  extremes : Spans words h.extremes

theorem holds_empty : empty.Holds [] where
  count := rfl
  classes _ := rfl
  extremes := rfl

/-- **Recording a value adds it.** -/
theorem Holds.recordWord {h : Histogram} {words : List Nat} (hold : h.Holds words) (v : Nat) :
    (h.recordWord v).Holds (words ++ [v]) where
  count := by
    rw [List.length_append, ← hold.count]
    rfl
  classes cls := by
    rw [List.countP_append, ← hold.classes, Histogram.recordWord, countIn_bump]
    by_cases hv : LatencyClass.bottom v = cls
    · simp [hv]
    · simp [hv]
  extremes := hold.extremes.widen v

theorem Holds.foldl_recordWord {h : Histogram} {words : List Nat} (hold : h.Holds words)
    (more : List Nat) : (more.foldl Histogram.recordWord h).Holds (words ++ more) := by
  induction more generalizing h words with
  | nil =>
    rw [List.append_nil]
    exact hold
  | cons v more ih =>
    have hnext := ih (hold.recordWord v)
    rwa [List.append_assoc, List.singleton_append] at hnext

/-! ## What is recorded -/

/-- What is passed over leaves the histogram as it is. -/
theorem extend_eq (hist : Histogram) (nanos : List Binary64) :
    hist.extend nanos = (nanos.filterMap word?).foldl Histogram.recordWord hist := by
  induction nanos generalizing hist with
  | nil => rfl
  | cons x nanos ih =>
    have hnext : hist.extend (x :: nanos) = (hist.record x).extend nanos := rfl
    rw [hnext, ih, List.filterMap_cons, record]
    cases word? x with
    | none => rfl
    | some v => rfl

/-- **A histogram holds what was recorded in it.** -/
theorem holds_extend (nanos : List Binary64) :
    (empty.extend nanos).Holds (nanos.filterMap word?) := by
  rw [extend_eq]
  exact holds_empty.foldl_recordWord (nanos.filterMap word?)

theorem word?_of_isUsable {x : Binary64} (h : x.isUsable = true) : word? x = some x.roundWord := by
  obtain ⟨hpos, hfinite⟩ := Bool.and_eq_true_iff.mp h
  rw [word?, if_pos (Bool.and_eq_true_iff.mpr ⟨hfinite, Binary64.le_of_lt hpos⟩)]

theorem filterMap_word?_of_isUsable {values : List Binary64}
    (h : ∀ x ∈ values, x.isUsable = true) :
    values.filterMap word? = values.map Binary64.roundWord := by
  rw [← List.filterMap_eq_map]
  exact List.filterMap_congr fun x hx => word?_of_isUsable (h x hx)

/-- **Usable values are all recorded.** -/
theorem holds_extend_of_isUsable {values : List Binary64} (h : ∀ x ∈ values, x.isUsable = true) :
    (empty.extend values).Holds (values.map Binary64.roundWord) := by
  rw [← filterMap_word?_of_isUsable h]
  exact holds_extend values

end LatencyLog.Histogram
