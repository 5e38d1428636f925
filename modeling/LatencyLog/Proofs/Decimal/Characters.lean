import LatencyLog.Decimal.Literal
import LatencyLog.Text.Characters

/-!
# The characters of a literal

A literal is digits, signs, a point, a mark of an exponent, or one of three names. White space is none of
that (`isBlank_of_mem_literal`), so a literal at the end of a line is not touched when the line is trimmed.
The names are the one place that takes a thought: they are compared in lower case, and a character could
become a letter by that which was none before. White space does not.
-/

namespace LatencyLog.Decimal

open Text (isBlank)

/-! ## Classes -/

/-- The digits are ten characters in a row. -/
theorem toNat_of_isDigit {c : Char} (h : c.isDigit = true) : 48 ≤ c.toNat ∧ c.toNat ≤ 57 := by
  simpa [Char.isDigit, UInt32.le_iff_toNat_le] using h

theorem isBlank_of_isDigit {c : Char} (h : c.isDigit = true) : isBlank c = false := by
  have hbounds := toNat_of_isDigit h
  simp only [isBlank, Text.inRanges, Text.blankRanges, List.any_cons, List.any_nil, Bool.or_false,
    Bool.or_eq_false_iff, decide_eq_false_iff_not]
  omega

/-- White space has no lower case. -/
theorem toLower_of_isBlank {c : Char} (h : isBlank c = true) : c.toLower = c := by
  have hupper : ¬ (65 ≤ c.toNat ∧ c.toNat ≤ 90) := by
    simp only [isBlank, Text.inRanges, Text.blankRanges, List.any_cons, List.any_nil, Bool.or_false,
      Bool.or_eq_true, decide_eq_true_eq] at h
    omega
  have hval : ¬ (c.val ≥ 'A'.val ∧ c.val ≤ 'Z'.val) := by
    simpa [UInt32.le_iff_toNat_le] using hupper
  exact dif_neg hval

theorem isBlank_of_mem_named {body name : List Char} (h : body.map Char.toLower = name)
    (hname : name.all (!isBlank ·) = true) : ∀ c ∈ body, isBlank c = false := by
  intro c hc
  rw [Bool.eq_false_iff]
  intro hblank
  have hmem : c.toLower ∈ name := h ▸ List.mem_map_of_mem hc
  rw [toLower_of_isBlank hblank] at hmem
  have hsolid := List.all_eq_true.mp hname c hmem
  rw [hblank] at hsolid
  exact Bool.false_ne_true hsolid

/-! ## Parts -/

-- Each part says what its characters are, given what those of the rest are.

theorem isBlank_of_mem_splitSign {cs : List Char}
    (h : ∀ c ∈ (splitSign cs).2, isBlank c = false) : ∀ c ∈ cs, isBlank c = false := by
  unfold splitSign at h
  split at h
  · exact List.forall_mem_cons.mpr ⟨by decide, h⟩
  · exact List.forall_mem_cons.mpr ⟨by decide, h⟩
  · exact h

theorem isBlank_of_mem_spanDigits {cs : List Char}
    (h : ∀ c ∈ (spanDigits cs).2, isBlank c = false) : ∀ c ∈ cs, isBlank c = false := by
  have hdigits : ∀ c ∈ cs.takeWhile Char.isDigit, isBlank c = false :=
    fun c hc => isBlank_of_isDigit (List.all_eq_true.mp List.all_takeWhile c hc)
  intro c hc
  rw [← List.takeWhile_append_dropWhile (p := Char.isDigit) (l := cs)] at hc
  rcases List.mem_append.mp hc with hc | hc
  · exact hdigits c hc
  · exact h c hc

theorem isBlank_of_mem_fractionDigits {cs : List Char}
    (h : ∀ c ∈ (fractionDigits cs).2, isBlank c = false) : ∀ c ∈ cs, isBlank c = false := by
  unfold fractionDigits at h
  split at h
  · exact List.forall_mem_cons.mpr ⟨by decide, isBlank_of_mem_spanDigits h⟩
  · exact h

theorem digits_of_signedInt {cs : List Char} {n : Int} (h : signedInt? cs = some n) :
    (splitSign cs).2.all Char.isDigit = true := by
  have heq : signedInt? cs =
      if (splitSign cs).2.isEmpty || !(splitSign cs).2.all Char.isDigit then none
      else some (if (splitSign cs).1 then -(natOfDigits (splitSign cs).2 : Int)
        else natOfDigits (splitSign cs).2) := rfl
  rw [heq] at h
  cases hall : (splitSign cs).2.all Char.isDigit with
  | true => rfl
  | false =>
    rw [hall, Bool.not_false, Bool.or_true, if_pos rfl] at h
    cases h

theorem isBlank_of_mem_signedInt {cs : List Char} {n : Int} (h : signedInt? cs = some n) :
    ∀ c ∈ cs, isBlank c = false := by
  apply isBlank_of_mem_splitSign
  intro c hc
  exact isBlank_of_isDigit (List.all_eq_true.mp (digits_of_signedInt h) c hc)

theorem isBlank_of_mem_exponent {cs : List Char} {n : Int} (h : exponent? cs = some n) :
    ∀ c ∈ cs, isBlank c = false := by
  cases cs with
  | nil =>
    intro c hc
    cases hc
  | cons c cs =>
    have heq : exponent? (c :: cs) = if c = 'e' || c = 'E' then signedInt? cs else none := rfl
    rw [heq, Option.ite_none_right_eq_some, Bool.or_eq_true, decide_eq_true_eq,
      decide_eq_true_eq] at h
    obtain ⟨hmark, hdigits⟩ := h
    refine List.forall_mem_cons.mpr ⟨?_, isBlank_of_mem_signedInt hdigits⟩
    rcases hmark with rfl | rfl
    · decide
    · decide

theorem isBlank_of_mem_unsigned {cs : List Char} {parts : Nat × Int} (h : unsigned? cs = some parts) :
    ∀ c ∈ cs, isBlank c = false := by
  apply isBlank_of_mem_spanDigits
  apply isBlank_of_mem_fractionDigits
  have heq : unsigned? cs =
      if (spanDigits cs).1.isEmpty && (fractionDigits (spanDigits cs).2).1.isEmpty then none
      else (exponent? (fractionDigits (spanDigits cs).2).2).map fun e =>
        (natOfDigits ((spanDigits cs).1 ++ (fractionDigits (spanDigits cs).2).1),
          e - ((fractionDigits (spanDigits cs).2).1.length : Int)) := rfl
  rw [heq, Option.ite_none_left_eq_some] at h
  obtain ⟨e, he, _⟩ := Option.map_eq_some_iff.mp h.2
  exact isBlank_of_mem_exponent he

/-! ## Literals -/

/-- **There is no white space in a literal.** -/
theorem isBlank_of_mem_literal {cs : List Char} {x : Binary64} (h : literal? cs = some x) :
    ∀ c ∈ cs, isBlank c = false := by
  apply isBlank_of_mem_splitSign
  by_cases hinf : (splitSign cs).2.map Char.toLower = "inf".toList
  · exact isBlank_of_mem_named hinf (by decide)
  by_cases hinfinity : (splitSign cs).2.map Char.toLower = "infinity".toList
  · exact isBlank_of_mem_named hinfinity (by decide)
  by_cases hnan : (splitSign cs).2.map Char.toLower = "nan".toList
  · exact isBlank_of_mem_named hnan (by decide)
  have heq : literal? cs =
      if (splitSign cs).2.map Char.toLower = "inf".toList ||
          (splitSign cs).2.map Char.toLower = "infinity".toList then
        some (.infinity (splitSign cs).1)
      else if (splitSign cs).2.map Char.toLower = "nan".toList then some (.nan (splitSign cs).1)
      else (unsigned? (splitSign cs).2).map fun parts =>
        .ofDecimal (splitSign cs).1 parts.1 parts.2 := rfl
  have hnamed : ¬ (decide ((splitSign cs).2.map Char.toLower = "inf".toList) ||
      decide ((splitSign cs).2.map Char.toLower = "infinity".toList)) = true := by
    rw [Bool.or_eq_true, decide_eq_true_eq, decide_eq_true_eq]
    exact not_or.mpr ⟨hinf, hinfinity⟩
  rw [heq, if_neg hnamed, if_neg hnan] at h
  obtain ⟨parts, hparts, _⟩ := Option.map_eq_some_iff.mp h
  exact isBlank_of_mem_unsigned hparts

theorem literal?_nil : literal? [] = none := by decide

theorem ne_nil_of_literal {cs : List Char} {x : Binary64} (h : literal? cs = some x) : cs ≠ [] := by
  rintro rfl
  rw [literal?_nil] at h
  cases h

end LatencyLog.Decimal
