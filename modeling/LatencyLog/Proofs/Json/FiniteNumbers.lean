import LatencyLog.Proofs.Decimal.ReadBack
import LatencyLog.Proofs.Json.Numerals

/-!
# Finite numbers as JSON writes them

A finite number is written as one of four layouts of its shortest decimal: with zeros and a point behind
the digits, with a point between them, with a point and zeros in front, or with an exponent. Each is a
numeral, and in each the digits are those of the decimal, with zeros before or behind, and the point and the
exponent make up for each other (`Spells`). So a numeral in any layout means what the decimal means, and
the decimal was chosen because it reads back.

The second layout and the last are one: the digits cut in two, with or without an exponent behind (`ofCut`).
-/

namespace LatencyLog.Json

open Decimal (AllDigits natOfDigits zeros minus)

namespace Numeral

/-- The numeral has the digits of a decimal, with zeros before or behind, and the exponent that goes with
them. -/
structure Spells (n : Numeral) (negative : Bool) (d : Decimal) : Prop where
  sign : n.negative = negative
  digits : ∃ k : Nat, natOfDigits (n.whole ++ n.fraction) = d.digits * 10 ^ k ∧
    n.power - n.fraction.length + k = d.exponent

theorem Spells.value_eq {n : Numeral} {negative : Bool} {d : Decimal} (h : n.Spells negative d) :
    n.value = .ofDecimal negative d.digits d.exponent := by
  obtain ⟨k, hdigits, hexponent⟩ := h.digits
  rw [value, h.sign, hdigits, Binary64.ofDecimal_mul_pow, hexponent]

variable (negative : Bool) {d : Decimal} (hd : d.digits ≠ 0)

/-- All digits in front of the point, and zeros to fill up. -/
def ofWhole (k : Nat) : Numeral where
  negative := negative
  whole := Nat.toDigits 10 d.digits ++ zeros k
  fraction := ['0']
  exponent := none
  whole_digits := (Decimal.allDigits_toDigits _).append (Decimal.allDigits_zeros k)
  whole_head := by
    obtain ⟨c, cs, h, hc⟩ := Decimal.exists_toDigits_eq_cons hd
    exact Or.inr ⟨c, cs ++ zeros k, by rw [h]; rfl, hc⟩
  fraction_digits := Decimal.allDigits_zeros 1
  exponent_digits := no_exponent

/-- The point behind some of the digits. -/
def ofCut (k : Nat) (hk : 0 < k) (exponent : Option (Bool × List Char))
    (hexponent : ∀ e ∈ exponent, e.2 ≠ [] ∧ AllDigits e.2) : Numeral where
  negative := negative
  whole := (Nat.toDigits 10 d.digits).take k
  fraction := (Nat.toDigits 10 d.digits).drop k
  exponent := exponent
  whole_digits := fun c hc => Decimal.allDigits_toDigits _ c (List.mem_of_mem_take hc)
  whole_head := by
    obtain ⟨c, cs, h, hc⟩ := Decimal.exists_toDigits_eq_cons hd
    exact Or.inr ⟨c, cs.take (k - 1), by rw [h, List.take_cons hk], hc⟩
  fraction_digits := fun c hc => Decimal.allDigits_toDigits _ c (List.mem_of_mem_drop hc)
  exponent_digits := hexponent

/-- All digits behind the point, and zeros between. -/
def ofBelow (d : Decimal) (k : Nat) : Numeral where
  negative := negative
  whole := ['0']
  fraction := zeros k ++ Nat.toDigits 10 d.digits
  exponent := none
  whole_digits := Decimal.allDigits_zeros 1
  whole_head := Or.inl rfl
  fraction_digits := (Decimal.allDigits_zeros k).append (Decimal.allDigits_toDigits _)
  exponent_digits := no_exponent

/-! ## Layouts -/

theorem spells_ofWhole {k : Nat} (hk : d.exponent = k) : (ofWhole negative hd k).Spells negative d where
  sign := rfl
  digits := by
    refine ⟨k + 1, ?_, ?_⟩
    · show natOfDigits (Nat.toDigits 10 d.digits ++ zeros k ++ zeros 1) = _
      rw [List.append_assoc, zeros, zeros, List.replicate_append_replicate]
      exact (Decimal.natOfDigits_append_zeros _ _).trans (by rw [Decimal.natOfDigits_toDigits])
    · show (0 : Int) - 1 + (k + 1 : Nat) = d.exponent
      omega

theorem spells_ofCut {k : Nat} {hk : 0 < k} {exponent : Option (Bool × List Char)}
    {hexponent : ∀ e ∈ exponent, e.2 ≠ [] ∧ AllDigits e.2}
    (hpower : (ofCut negative hd k hk exponent hexponent).power =
      d.exponent + ((Nat.toDigits 10 d.digits).drop k).length) :
    (ofCut negative hd k hk exponent hexponent).Spells negative d where
  sign := rfl
  digits := by
    refine ⟨0, ?_, ?_⟩
    · show natOfDigits (List.take k _ ++ List.drop k _) = _
      rw [List.take_append_drop, Decimal.natOfDigits_toDigits, Nat.pow_zero, Nat.mul_one]
    · rw [hpower]
      show d.exponent + (List.drop k _).length - (List.drop k _).length + (0 : Nat) = d.exponent
      omega

theorem spells_ofBelow {k : Nat} (hk : d.exponent = -(k + (Nat.toDigits 10 d.digits).length : Nat)) :
    (ofBelow negative d k).Spells negative d where
  sign := rfl
  digits := by
    refine ⟨0, ?_, ?_⟩
    · show natOfDigits (zeros 1 ++ (zeros k ++ Nat.toDigits 10 d.digits)) = _
      rw [Decimal.natOfDigits_zeros_append, Decimal.natOfDigits_zeros_append,
        Decimal.natOfDigits_toDigits, Nat.pow_zero, Nat.mul_one]
    · show (0 : Int) - (zeros k ++ Nat.toDigits 10 d.digits).length + 0 = d.exponent
      rw [List.length_append, zeros, List.length_replicate]
      omega

theorem text_ofCut {k : Nat} {hk : 0 < k} {exponent : Option (Bool × List Char)}
    {hexponent : ∀ e ∈ exponent, e.2 ≠ [] ∧ AllDigits e.2} :
    (ofCut negative hd k hk exponent hexponent).text = minus negative ++
      ((Nat.toDigits 10 d.digits).take k ++
        (pointed ((Nat.toDigits 10 d.digits).drop k) ++ marked exponent)) :=
  rfl

theorem pointed_of_ne_nil {ds : List Char} (h : ds ≠ []) : pointed ds = '.' :: ds := by
  cases ds with
  | nil => exact absurd rfl h
  | cons d ds => rfl

include hd in
theorem exists_spells_positional (point : Int)
    (hpoint : point = (Nat.toDigits 10 d.digits).length + d.exponent) :
    ∃ n : Numeral, n.Spells negative d ∧
      n.text = minus negative ++
        Decimal.writePositional (Nat.toDigits 10 d.digits) point Decimal.Layout.json.wholeEnding := by
  unfold Decimal.writePositional
  split
  · refine ⟨ofWhole negative hd (point.toNat - (Nat.toDigits 10 d.digits).length),
      spells_ofWhole negative hd (by omega), ?_⟩
    show minus negative ++ ((_ ++ _) ++ ['.', '0']) = _
    rfl
  · split
    · have hne : (Nat.toDigits 10 d.digits).drop point.toNat ≠ [] := by
        rw [Ne, List.drop_eq_nil_iff]
        omega
      refine ⟨ofCut negative hd point.toNat (by omega) none (fun _ h => nomatch h),
        spells_ofCut negative hd ?_, ?_⟩
      · show (0 : Int) = _
        rw [List.length_drop]
        omega
      · rw [text_ofCut, pointed_of_ne_nil hne]
        show minus negative ++ (_ ++ (_ ++ [])) = _
        rw [List.append_nil]
    · refine ⟨ofBelow negative d (-point).toNat, spells_ofBelow negative (by omega), ?_⟩
      have hne : zeros (-point).toNat ++ Nat.toDigits 10 d.digits ≠ [] :=
        List.append_ne_nil_of_right_ne_nil _ Nat.toDigits_ne_nil
      show minus negative ++ (['0'] ++ (pointed (zeros _ ++ _) ++ [])) = _
      rw [pointed_of_ne_nil hne, List.append_nil]
      rfl

include hd in
theorem exists_spells_scientific (point : Int)
    (hpoint : point = (Nat.toDigits 10 d.digits).length + d.exponent) :
    ∃ n : Numeral, n.Spells negative d ∧
      n.text = minus negative ++ Decimal.writeScientific (Nat.toDigits 10 d.digits) point := by
  have hexponent : ∀ e ∈ some (decide (point - 1 < 0), Nat.toDigits 10 (point - 1).natAbs),
      e.2 ≠ [] ∧ AllDigits e.2 := by
    rintro _ ⟨rfl⟩
    exact ⟨Nat.toDigits_ne_nil, Decimal.allDigits_toDigits _⟩
  have hlength : 0 < (Nat.toDigits 10 d.digits).length :=
    List.length_pos_iff.mpr Nat.toDigits_ne_nil
  refine ⟨ofCut negative hd 1 Nat.one_pos _ hexponent, spells_ofCut negative hd ?_, ?_⟩
  · show (if decide (point - 1 < 0) then -(natOfDigits (Nat.toDigits 10 (point - 1).natAbs) : Int)
      else natOfDigits (Nat.toDigits 10 (point - 1).natAbs)) = _
    rw [Decimal.natOfDigits_toDigits, List.length_drop]
    split
    all_goals simp only [decide_eq_true_eq] at *; omega
  · have hsign : signChar (decide (point - 1 < 0)) = if point - 1 < 0 then '-' else '+' := by
      simp [signChar]
    rw [text_ofCut, marked, hsign, Decimal.writeScientific, List.append_assoc]
    rfl

include hd in
theorem exists_spells_writeDecimal :
    ∃ n : Numeral, n.Spells negative d ∧
      n.text = minus negative ++ Decimal.Layout.json.writeDecimal d := by
  unfold Decimal.Layout.writeDecimal
  dsimp only
  split
  · exact exists_spells_positional negative hd _ rfl
  · exact exists_spells_scientific negative hd _ rfl

/-! ## Finite numbers -/

/-- **A finite number is written as a numeral that means it.** -/
theorem exists_numeral_writeFinite (m : Binary64.Magnitude) :
    ∃ n : Numeral, n.text = Decimal.Layout.json.writeFinite negative m ∧
      n.value = .finite negative m := by
  unfold Decimal.Layout.writeFinite
  split
  · rename_i hzero
    refine ⟨ofBelow negative ⟨0, -1⟩ 0, rfl, ?_⟩
    rw [(spells_ofBelow negative rfl).value_eq, Binary64.ofDecimal_zero]
    exact congrArg (Binary64.finite negative) (Binary64.Magnitude.ext hzero.symm)
  · rename_i hne
    obtain ⟨n, hspells, htext⟩ :=
      exists_spells_writeDecimal negative (Decimal.digits_shortest_ne_zero hne)
    exact ⟨n, htext, hspells.value_eq.trans (Decimal.ofDecimal_shortest _ negative m)⟩

end Numeral

end LatencyLog.Json
