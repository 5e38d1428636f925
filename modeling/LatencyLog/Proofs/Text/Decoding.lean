import LatencyLog.Proofs.Text.Cutting
import LatencyLog.Text.Utf8
import Mathlib.Algebra.Group.Nat.Defs

/-!
# Line feeds among bytes that are decoded

Bytes can be cut into lines and each line decoded, or they can be decoded as a whole and the text cut.
If a broken character could take the line feed behind it along, or if what is left of one could become
a line feed, the two would differ. Neither can happen, whatever the bytes are.

* A line feed finds the machine in some state, perhaps within a character. It does to that character what
  the end of the input would do, and then stands for itself, as any character of one byte does
  (`step_single`). So what is decoded in front of it does not depend on what comes behind, nor the other
  way round (`decodeLossy_append_single`).
* No other byte puts out a line feed (`eq_of_lineFeed_mem_step`). A character of more than one byte has a
  code of 128 at least, and that has to be known from the bits which the machine holds: it is the
  invariant of its states, `State.Sound`.
-/

namespace LatencyLog.Text.Utf8

/-! ## States -/

/-- What a machine that waits for `owed` bytes knows, the first of them being `low` at least. -/
structure Begun (owed : Nat) (low : UInt8) (bits : Nat) : Prop where
  owed_pos : 0 < owed
  /-- No character of one byte continues another. -/
  low_ge : 0x80 ≤ low.toNat
  /-- The least code that can come out is not that of a single byte. -/
  least_ge : 0x80 ≤ (bits * 64 + (low.toNat - 0x80)) * 64 ^ (owed - 1)

/-- The states that the machine gets into. -/
def State.Sound : State → Prop
  | .between => True
  | .within owed low _ bits => Begun owed low bits

/-- The bounds on a second byte are there where the first byte alone would allow a shorter character. -/
theorem sound_first (b : UInt8) : (first b).2.Sound := by
  simp only [first]
  split
  · exact trivial
  split
  · exact trivial
  split
  · exact ⟨by omega, by decide, by simp; omega⟩
  split
  · refine ⟨by omega, by split <;> decide, ?_⟩
    split <;> simp <;> omega
  split
  · refine ⟨by omega, by split <;> decide, ?_⟩
    split <;> simp <;> omega
  · exact trivial

/-- A byte that continues a character leaves the machine with one byte less to wait for. -/
theorem Begun.continue {owed : Nat} {low b : UInt8} {bits : Nat} (h : Begun owed low bits)
    (howed : 1 < owed) (hb : low ≤ b) :
    Begun (owed - 1) 0x80 (bits * 64 + (b.toNat - 0x80)) where
  owed_pos := by omega
  low_ge := by decide
  least_ge := by
    have hpow : 64 ^ (owed - 1) = 64 * 64 ^ (owed - 1 - 1) := by
      rw [← Nat.pow_succ', Nat.succ_eq_add_one, Nat.sub_add_cancel (by omega)]
    have hbits : bits * 64 + (low.toNat - 0x80) ≤ bits * 64 + (b.toNat - 0x80) := by
      have := UInt8.le_iff_toNat_le.mp hb
      omega
    calc 0x80 ≤ (bits * 64 + (low.toNat - 0x80)) * 64 ^ (owed - 1) := h.least_ge
      _ ≤ (bits * 64 + (b.toNat - 0x80)) * 64 ^ (owed - 1) := Nat.mul_le_mul_right _ hbits
      _ = ((bits * 64 + (b.toNat - 0x80)) * 64 + 0) * 64 ^ (owed - 1 - 1) := by
        rw [hpow, Nat.add_zero, Nat.mul_assoc]

/-- The code of a character that its last byte completes. -/
theorem Begun.code_ge {owed : Nat} {low b : UInt8} {bits : Nat} (h : Begun owed low bits)
    (howed : owed ≤ 1) (hb : low ≤ b) : 0x80 ≤ bits * 64 + (b.toNat - 0x80) := by
  have hone : owed - 1 = 0 := by omega
  have hleast := h.least_ge
  rw [hone, Nat.pow_zero, Nat.mul_one] at hleast
  have := UInt8.le_iff_toNat_le.mp hb
  omega

/-! ## Steps -/

theorem step_broken (owed : Nat) {low high b : UInt8} (bits : Nat) (hb : ¬ (low ≤ b ∧ b ≤ high)) :
    step (.within owed low high bits) b = (none :: (first b).1, (first b).2) := by
  simp only [step, if_neg hb]

/-- A byte within a character completes it, continues it or breaks it off. -/
theorem step_within (owed : Nat) (low high b : UInt8) (bits : Nat) :
    (low ≤ b ∧ owed ≤ 1 ∧ step (.within owed low high bits) b =
      ([some (Char.ofNat (bits * 64 + (b.toNat - 0x80)))], .between)) ∨
    (low ≤ b ∧ 1 < owed ∧ step (.within owed low high bits) b =
      ([], .within (owed - 1) 0x80 0xBF (bits * 64 + (b.toNat - 0x80)))) ∨
    step (.within owed low high bits) b = (none :: (first b).1, (first b).2) := by
  by_cases hb : low ≤ b ∧ b ≤ high
  · rcases Nat.lt_or_ge 1 owed with howed | howed
    · refine Or.inr (Or.inl ⟨hb.1, howed, ?_⟩)
      simp only [step, if_pos hb, if_neg (Nat.not_le.mpr howed)]
    · refine Or.inl ⟨hb.1, howed, ?_⟩
      simp only [step, if_pos hb, if_pos howed]
  · exact Or.inr (Or.inr (step_broken owed bits hb))

theorem sound_between : State.between.Sound := trivial

theorem sound_step {state : State} (h : state.Sound) (b : UInt8) : (step state b).2.Sound := by
  cases state with
  | between => exact sound_first b
  | within owed low high bits =>
    obtain ⟨_, _, hstep⟩ | ⟨hb, howed, hstep⟩ | hstep := step_within owed low high b bits
    · rw [hstep]
      exact trivial
    · rw [hstep]
      exact Begun.continue h howed hb
    · rw [hstep]
      exact sound_first b

theorem ofNat_eq_lineFeed {n : Nat} (h : Char.ofNat n = '\n') : n = 0x0A := by
  rcases Decidable.em n.isValidChar with hn | hn
  · rw [Char.ofNat, dif_pos hn] at h
    exact congrArg Char.toNat h
  · rw [Char.ofNat, dif_neg hn] at h
    cases h

theorem eq_of_lineFeed_mem_first {b : UInt8} (h : some '\n' ∈ (first b).1) : b = 0x0A := by
  simp only [first] at h
  split at h
  · have hcode := ofNat_eq_lineFeed (Option.some.inj (List.mem_singleton.mp h)).symm
    exact UInt8.toNat_inj.mp hcode
  split at h
  · simp at h
  split at h
  · simp at h
  split at h
  · simp at h
  split at h <;> simp at h

/-- **Only a line feed puts out a line feed.** -/
theorem eq_of_lineFeed_mem_step {state : State} (hstate : state.Sound) {b : UInt8}
    (h : some '\n' ∈ (step state b).1) : b = 0x0A := by
  cases state with
  | between => exact eq_of_lineFeed_mem_first h
  | within owed low high bits =>
    obtain ⟨hb, howed, hstep⟩ | ⟨_, _, hstep⟩ | hstep := step_within owed low high b bits
    · rw [hstep, List.mem_singleton, Option.some.injEq] at h
      have hcode := ofNat_eq_lineFeed h.symm
      have hge := Begun.code_ge hstate howed hb
      omega
    · rw [hstep] at h
      cases h
    · rw [hstep] at h
      rcases List.mem_cons.mp h with h | h
      · cases h
      · exact eq_of_lineFeed_mem_first h

/-- **A character of one byte does to another character what the end of the input does**, and stands for
itself. -/
theorem step_single {state : State} (h : state.Sound) {b : UInt8} (hb : b.toNat < 0x80) :
    step state b = (finish state ++ [some (Char.ofNat b.toNat)], .between) := by
  have hfirst : first b = ([some (Char.ofNat b.toNat)], .between) := if_pos hb
  cases state with
  | between => exact hfirst
  | within owed low high bits =>
    have hlow : ¬ (low ≤ b ∧ b ≤ high) := by
      rintro ⟨hle, _⟩
      have hge := Begun.low_ge h
      have := UInt8.le_iff_toNat_le.mp hle
      omega
    rw [step_broken owed bits hlow, hfirst]
    rfl

/-! ## Runs -/

theorem scan_append_single {state : State} (h : state.Sound) {b : UInt8} (hb : b.toNat < 0x80)
    (before after : List UInt8) :
    scan state (before ++ b :: after) =
      scan state before ++ some (Char.ofNat b.toNat) :: scan .between after := by
  -- For any state, as the bytes in front may have ended within a character.
  induction before generalizing state with
  | nil =>
    show (step state b).1 ++ scan (step state b).2 after = _
    rw [step_single h hb, List.append_assoc]
    rfl
  | cons c before ih =>
    show (step state c).1 ++ scan (step state c).2 (before ++ b :: after) = _
    rw [ih (sound_step h c), ← List.append_assoc]
    rfl

theorem lineFeed_mem_of_mem_scan {state : State} (h : state.Sound) {bytes : List UInt8}
    (hmem : some '\n' ∈ scan state bytes) : 0x0A ∈ bytes := by
  induction bytes generalizing state with
  | nil =>
    cases state with
    | between => cases hmem
    | within => simp [scan, finish] at hmem
  | cons b bytes ih =>
    rcases List.mem_append.mp hmem with hstep | hrest
    · rw [eq_of_lineFeed_mem_step h hstep]
      exact List.mem_cons_self
    · exact List.mem_cons_of_mem b (ih (sound_step h b) hrest)

/-- A byte that puts nothing out leaves something unfinished. -/
theorem step_ne_between {state : State} {b : UInt8} (h : (step state b).1 = []) :
    (step state b).2 ≠ .between := by
  have hfirst : (first b).1 = [] → (first b).2 ≠ .between := by
    simp only [first]
    split
    · simp
    split
    · simp
    split
    · simp
    split
    · simp
    split <;> simp
  cases state with
  | between => exact hfirst h
  | within owed low high bits =>
    obtain ⟨_, _, hstep⟩ | ⟨_, _, hstep⟩ | hstep := step_within owed low high b bits
    · rw [hstep] at h
      cases h
    · rw [hstep]
      simp
    · rw [hstep] at h
      cases h

/-- Nothing comes out of nothing only. -/
theorem eq_nil_of_scan_eq_nil {state : State} {bytes : List UInt8} (h : scan state bytes = []) :
    state = .between ∧ bytes = [] := by
  induction bytes generalizing state with
  | nil =>
    cases state with
    | between => exact ⟨rfl, rfl⟩
    | within => cases h
  | cons b bytes ih =>
    obtain ⟨hstep, hrest⟩ := List.append_eq_nil_iff.mp h
    exact absurd (ih hrest).1 (step_ne_between hstep)

/-! ## Texts -/

theorem replacement_ne_lineFeed : replacement ≠ '\n' := by decide

theorem decodeLossy_nil : decodeLossy [] = [] := rfl

/-- **What is decoded in front of a character of one byte and what is decoded behind it do not know of each
other.** -/
theorem decodeLossy_append_single {b : UInt8} (hb : b.toNat < 0x80) (before after : List UInt8) :
    decodeLossy (before ++ b :: after) =
      decodeLossy before ++ Char.ofNat b.toNat :: decodeLossy after := by
  have hscan : scan .between (before ++ b :: after) =
      scan .between before ++ some (Char.ofNat b.toNat) :: scan .between after :=
    scan_append_single sound_between hb before after
  rw [decodeLossy, hscan, List.map_append, List.map_cons]
  rfl

theorem decodeLossy_append_lineFeed (before after : List UInt8) :
    decodeLossy (before ++ 0x0A :: after) = decodeLossy before ++ '\n' :: decodeLossy after :=
  decodeLossy_append_single (by decide) before after

theorem decodeLossy_ne_nil {bytes : List UInt8} (h : bytes ≠ []) : decodeLossy bytes ≠ [] := by
  intro hnil
  exact h (eq_nil_of_scan_eq_nil (List.map_eq_nil_iff.mp hnil)).2

/-! ## Lines -/

/-- Bytes line by line: there is no line feed, or a first one and what comes behind it. -/
theorem lines_induction {motive : List UInt8 → Prop}
    (unended : ∀ bytes, 0x0A ∉ bytes → motive bytes)
    (ended : ∀ before after, 0x0A ∉ before → motive after → motive (before ++ 0x0A :: after))
    (bytes : List UInt8) : motive bytes := by
  by_cases h : 0x0A ∈ bytes
  · obtain ⟨before, after, hsplit, hbefore⟩ := List.eq_append_cons_of_mem h
    rw [hsplit]
    exact ended before after hbefore (lines_induction unended ended after)
  · exact unended bytes h
termination_by bytes.length
decreasing_by
  rw [hsplit, List.length_append, List.length_cons]
  omega

/-- No line feed is made of anything else. -/
theorem lineFeed_not_mem_decodeLossy {bytes : List UInt8} (h : 0x0A ∉ bytes) :
    '\n' ∉ decodeLossy bytes := by
  intro hmem
  obtain ⟨o, ho, hc⟩ := List.mem_map.mp hmem
  cases o with
  | none => exact replacement_ne_lineFeed hc
  | some c =>
    obtain rfl : c = '\n' := hc
    exact h (lineFeed_mem_of_mem_scan sound_between ho)

theorem byteLines_append_lineFeed {before : List UInt8} (h : 0x0A ∉ before) (after : List UInt8) :
    byteLines (before ++ 0x0A :: after) = (before ++ [0x0A]) :: byteLines after :=
  cutAfter_append_cons (open_of_not_mem h) rfl after

/-- **Lines decoded are the lines of the decoded text.** -/
theorem map_decodeLossy_byteLines (bytes : List UInt8) :
    (byteLines bytes).map decodeLossy = lines (decodeLossy bytes) := by
  induction bytes using lines_induction with
  | unended bytes h =>
    have htext := lineFeed_not_mem_decodeLossy h
    cases bytes with
    | nil => rfl
    | cons b bytes =>
      have hne := List.cons_ne_nil b bytes
      rw [byteLines, lines, cutAfter_of_open hne (open_of_not_mem h),
        cutAfter_of_open (decodeLossy_ne_nil hne) (open_of_not_mem htext)]
      rfl
  | ended before after h ih =>
    have htext : lines (decodeLossy before ++ '\n' :: decodeLossy after) =
        (decodeLossy before ++ ['\n']) :: lines (decodeLossy after) :=
      cutAfter_append_cons (open_of_not_mem (lineFeed_not_mem_decodeLossy h)) rfl _
    rw [byteLines_append_lineFeed h, decodeLossy_append_lineFeed, htext, List.map_cons,
      decodeLossy_append_lineFeed, decodeLossy_nil, ih]

/-- As many line feeds come out as go in. -/
theorem count_lineFeed_decodeLossy (bytes : List UInt8) :
    (decodeLossy bytes).count '\n' = bytes.count 0x0A := by
  induction bytes using lines_induction with
  | unended bytes h =>
    rw [List.count_eq_zero.mpr h, List.count_eq_zero.mpr (lineFeed_not_mem_decodeLossy h)]
  | ended before after h ih =>
    rw [decodeLossy_append_lineFeed, List.count_append, List.count_append, List.count_cons_self,
      List.count_cons_self, ih, List.count_eq_zero.mpr h,
      List.count_eq_zero.mpr (lineFeed_not_mem_decodeLossy h)]

end LatencyLog.Text.Utf8
