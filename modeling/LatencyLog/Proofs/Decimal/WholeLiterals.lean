import LatencyLog.Proofs.Binary64.WholeNumbers
import LatencyLog.Proofs.Decimal.ReadBack
import LatencyLog.Proofs.Json.Numerals

/-!
# Literals of whole numbers

Digits with a sign in front, and nothing else, are a literal, and it means the integer that they write:
exactly, up to 2^53 (`exists_whole_of_signedInt?`). Zeros in front are allowed, so not every such text is the
text of an integer.
-/

namespace LatencyLog.Decimal

open Text (Stops)

variable {cs ds : List Char} {n : Int}

/-! ## Digits alone -/

/-- Digits alone are a number without an exponent. -/
theorem unsigned?_of_allDigits (hne : ds ≠ []) (hds : AllDigits ds) :
    unsigned? ds = some (natOfDigits ds, 0) := by
  have hspan := spanDigits_append hds Text.stops_nil
  rw [List.append_nil] at hspan
  have hsome : ¬ (ds.isEmpty && ([] : List Char).isEmpty) = true := by simpa using hne
  rw [unsigned?, hspan]
  dsimp only [fractionDigits]
  rw [if_neg hsome, List.append_nil]
  rfl

/-- Digits spell no name. -/
theorem map_toLower_ne (hne : ds ≠ []) (hds : AllDigits ds) {c : Char} (hc : c.isDigit = false)
    (name : List Char) : ds.map Char.toLower ≠ c :: name := by
  obtain ⟨d, rest, rfl⟩ := List.exists_cons_of_ne_nil hne
  have hd := hds d (List.mem_cons_self ..)
  rw [List.map_cons, Json.Numeral.toLower_of_isDigit hd]
  intro heq
  cases heq
  rw [hc] at hd
  cases hd

/-! ## Digits with a sign -/

theorem signedInt?_eq_some_iff : signedInt? cs = some n ↔ (splitSign cs).2 ≠ [] ∧
    AllDigits (splitSign cs).2 ∧ n = if (splitSign cs).1 then -(natOfDigits (splitSign cs).2 : Int)
      else natOfDigits (splitSign cs).2 := by
  have hiff : (splitSign cs).2.all Char.isDigit = true ↔ AllDigits (splitSign cs).2 := List.all_eq_true
  have heq : signedInt? cs =
      if (splitSign cs).2.isEmpty || !(splitSign cs).2.all Char.isDigit then none
      else some (if (splitSign cs).1 then -(natOfDigits (splitSign cs).2 : Int)
        else natOfDigits (splitSign cs).2) := rfl
  rw [heq, Option.ite_none_left_eq_some, Bool.or_eq_true, not_or, List.isEmpty_iff, Bool.not_eq_true',
    Bool.not_eq_false, hiff, Option.some.injEq, and_assoc]
  constructor
  · rintro ⟨hne, hds, rfl⟩
    exact ⟨hne, hds, rfl⟩
  · rintro ⟨hne, hds, rfl⟩
    exact ⟨hne, hds, rfl⟩

theorem literal?_of_digits (hne : (splitSign cs).2 ≠ []) (hds : AllDigits (splitSign cs).2) :
    literal? cs = some (.ofDecimal (splitSign cs).1 (natOfDigits (splitSign cs).2) 0) := by
  have hnamed : ¬ (decide ((splitSign cs).2.map Char.toLower = "inf".toList) ||
      decide ((splitSign cs).2.map Char.toLower = "infinity".toList)) = true := by
    simp only [Bool.or_eq_true, decide_eq_true_eq, not_or]
    exact ⟨map_toLower_ne hne hds (by decide) _, map_toLower_ne hne hds (by decide) _⟩
  have hnan : ¬ (splitSign cs).2.map Char.toLower = "nan".toList :=
    map_toLower_ne hne hds (by decide) _
  rw [literal?]
  dsimp only
  rw [if_neg hnamed, if_neg hnan, unsigned?_of_allDigits hne hds, Option.map_some]

/-- **Digits with a sign are a literal that means the integer.** -/
theorem exists_whole_of_signedInt? (h : signedInt? cs = some n) (hn : n.natAbs ≤ 2 ^ 53) :
    ∃ x : Binary64, literal? cs = some x ∧ x.Whole n := by
  obtain ⟨hne, hds, hvalue⟩ := signedInt?_eq_some_iff.mp h
  refine ⟨_, literal?_of_digits hne hds, ?_⟩
  have habs : natOfDigits (splitSign cs).2 = n.natAbs := by
    rw [hvalue]
    split
    · rw [Int.natAbs_neg, Int.natAbs_natCast]
    · rw [Int.natAbs_natCast]
  have hround : Binary64.ofDecimal (splitSign cs).1 n.natAbs 0 =
      .ofQuotient (splitSign cs).1 (n.natAbs * Binary64.unity) 1 := by
    rw [Binary64.ofDecimal_eq_ofQuotient, Int.neg_zero, Int.toNat_zero, Nat.pow_zero, Nat.mul_one]
  rw [habs, hround]
  refine Binary64.whole_ofQuotient hn (fun hs => ?_) fun hs => ?_
  · rw [hvalue, if_pos hs]
    omega
  · rw [hvalue, if_neg (by rw [hs]; exact Bool.false_ne_true)]
    omega

end LatencyLog.Decimal
