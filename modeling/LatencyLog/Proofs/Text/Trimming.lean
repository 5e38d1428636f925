import LatencyLog.Text.Characters

/-!
# What trimming leaves

`trim` drops from the front, turns the text around, drops again and turns it back. What that comes to is
said here without an order of steps: `Trims cs s`, the text `s` with white space on both sides of it is
`cs`, and `s` itself neither begins nor ends with any. There is one such text for each, and `trim` finds it
(`trims_iff`). A text that neither begins nor ends with white space is left as it is (`trim_eq_self`), and
with white space put around any text the same is left of it (`trim_append_append`).
-/

namespace LatencyLog.Text

/-! ## Edges -/

/-- No white space at the front. -/
def SolidStart (cs : List Char) : Prop := ∀ c, cs.head? = some c → isBlank c = false

/-- No white space at the end. -/
def SolidEnd (cs : List Char) : Prop := ∀ c, cs.getLast? = some c → isBlank c = false

/-- `s` is `cs` without the white space around it. -/
structure Trims (cs s : List Char) : Prop where
  split : ∃ front back, cs = front ++ s ++ back ∧
    (∀ c ∈ front, isBlank c = true) ∧ ∀ c ∈ back, isBlank c = true
  solidStart : SolidStart s
  solidEnd : SolidEnd s

theorem solidStart_reverse {cs : List Char} : SolidStart cs.reverse ↔ SolidEnd cs := by
  rw [SolidStart, SolidEnd, List.head?_reverse]

theorem solidEnd_of_forall {cs : List Char} (h : ∀ c ∈ cs, isBlank c = false) : SolidEnd cs :=
  fun c hc => h c (List.mem_of_getLast? hc)

theorem solidStart_trimStart (cs : List Char) : SolidStart (trimStart cs) := by
  intro c hc
  have hstop := List.head?_dropWhile_not isBlank cs
  rw [trimStart] at hc
  rwa [hc] at hstop

theorem trimStart_eq_self {cs : List Char} (h : SolidStart cs) : trimStart cs = cs := by
  cases cs with
  | nil => rfl
  | cons c cs =>
    refine List.dropWhile_cons_of_neg ?_
    rw [h c rfl]
    exact Bool.false_ne_true

/-- White space in front is dropped. -/
theorem trimStart_append {front : List Char} (h : ∀ c ∈ front, isBlank c = true) (cs : List Char) :
    trimStart (front ++ cs) = trimStart cs := List.dropWhile_append_of_pos h

/-- What is dropped is white space. -/
theorem exists_trimStart (cs : List Char) :
    ∃ front, cs = front ++ trimStart cs ∧ ∀ c ∈ front, isBlank c = true := by
  refine ⟨cs.takeWhile isBlank, List.takeWhile_append_dropWhile.symm, ?_⟩
  exact List.all_eq_true.mp List.all_takeWhile

/-! ## Both ends -/

theorem trimEnd_eq (cs : List Char) : trimEnd cs = (trimStart cs.reverse).reverse := rfl

theorem solidEnd_trimEnd (cs : List Char) : SolidEnd (trimEnd cs) := by
  rw [trimEnd_eq, ← solidStart_reverse, List.reverse_reverse]
  exact solidStart_trimStart cs.reverse

theorem trimEnd_eq_self {cs : List Char} (h : SolidEnd cs) : trimEnd cs = cs := by
  rw [trimEnd_eq, trimStart_eq_self (solidStart_reverse.mpr h), List.reverse_reverse]

theorem trimEnd_append {back : List Char} (h : ∀ c ∈ back, isBlank c = true) (cs : List Char) :
    trimEnd (cs ++ back) = trimEnd cs := by
  have hreverse : ∀ c ∈ back.reverse, isBlank c = true :=
    fun c hc => h c (List.mem_reverse.mp hc)
  rw [trimEnd_eq, List.reverse_append, trimStart_append hreverse, ← trimEnd_eq]

theorem exists_trimEnd (cs : List Char) :
    ∃ back, cs = trimEnd cs ++ back ∧ ∀ c ∈ back, isBlank c = true := by
  obtain ⟨front, hsplit, hblank⟩ := exists_trimStart cs.reverse
  refine ⟨front.reverse, ?_, fun c hc => hblank c (List.mem_reverse.mp hc)⟩
  rw [trimEnd_eq, ← List.reverse_append, ← hsplit, List.reverse_reverse]

/-- The end does not touch the front: what it leaves begins as before, if it leaves anything. -/
theorem solidStart_trimEnd {cs : List Char} (h : SolidStart cs) : SolidStart (trimEnd cs) := by
  obtain ⟨back, hsplit, _⟩ := exists_trimEnd cs
  intro c hc
  apply h c
  rw [hsplit, List.head?_append, hc]
  rfl

theorem trim_eq_self {cs : List Char} (hstart : SolidStart cs) (hend : SolidEnd cs) :
    trim cs = cs := by
  rw [trim, trimStart_eq_self hstart, trimEnd_eq_self hend]

theorem trims_trim (cs : List Char) : Trims cs (trim cs) where
  split := by
    obtain ⟨front, hfront, hblank⟩ := exists_trimStart cs
    obtain ⟨back, hback, hblank'⟩ := exists_trimEnd (trimStart cs)
    refine ⟨front, back, ?_, hblank, hblank'⟩
    rw [List.append_assoc]
    exact hfront.trans (congrArg (front ++ ·) hback)
  solidStart := solidStart_trimEnd (solidStart_trimStart cs)
  solidEnd := solidEnd_trimEnd (trimStart cs)

/-- **What trimming leaves is the text without the white space around it.** -/
theorem trims_iff {cs s : List Char} : Trims cs s ↔ s = trim cs := by
  constructor
  · rintro ⟨⟨front, back, rfl, hfront, hback⟩, hstart, hend⟩
    rw [trim, List.append_assoc, trimStart_append hfront]
    cases s with
    | nil =>
      have hnone := trimStart_append hback []
      rw [List.append_nil] at hnone
      rw [List.nil_append, hnone]
      rfl
    | cons c s =>
      have hstart' : SolidStart (c :: s ++ back) := hstart
      rw [trimStart_eq_self hstart', trimEnd_append hback, trimEnd_eq_self hend]
  · rintro rfl
    exact trims_trim cs

theorem trim_trim (cs : List Char) : trim (trim cs) = trim cs :=
  trim_eq_self (trims_trim cs).solidStart (trims_trim cs).solidEnd

/-- White space more or less around a text makes no difference. -/
theorem trim_append_append {front back : List Char} (hfront : ∀ c ∈ front, isBlank c = true)
    (hback : ∀ c ∈ back, isBlank c = true) (cs : List Char) : trim (front ++ cs ++ back) = trim cs := by
  refine (trims_iff.mp ⟨?_, (trims_trim cs).solidStart, (trims_trim cs).solidEnd⟩).symm
  obtain ⟨front', back', hsplit, hfront', hback'⟩ := (trims_trim cs).split
  refine ⟨front ++ front', back' ++ back, ?_, ?_, ?_⟩
  · calc front ++ cs ++ back = front ++ (front' ++ trim cs ++ back') ++ back :=
          congrArg (front ++ · ++ back) hsplit
      _ = front ++ front' ++ trim cs ++ (back' ++ back) := by simp only [List.append_assoc]
  · exact List.forall_mem_append.mpr ⟨hfront, hfront'⟩
  · exact List.forall_mem_append.mpr ⟨hback', hback⟩

theorem trim_concat {c : Char} (h : isBlank c = true) (cs : List Char) : trim (cs ++ [c]) = trim cs :=
  trim_append_append (List.forall_mem_nil _) (List.forall_mem_singleton.mpr h) cs

end LatencyLog.Text
