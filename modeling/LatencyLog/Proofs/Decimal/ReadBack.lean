import LatencyLog.Decimal.Shortest
import LatencyLog.Proofs.Binary64.Grid

/-!
# Decimals that read back

Reading a decimal is rounding one exact quotient, and the two early answers of `ofDecimal` are what the
rounding would have answered (`ofDecimal_eq_ofQuotient`). So it is the value of a decimal that is read and
not its spelling: digits may be moved over to the exponent (`ofDecimal_mul_pow`).

`shortest` reads back by how it is built, if its last resort does. That is all digits of a magnitude, which
are on the grid as they are.
-/

namespace LatencyLog

namespace Binary64

/-! ## Above and below the numbers -/

theorem ofQuotient_of_ceiling_le {num den : Nat} (hden : 0 < den) (h : ceiling * den ≤ num)
    (s : Bool) : ofQuotient s num den = .infinity s := by
  rw [ofQuotient, dif_neg]
  exact Nat.not_lt.mpr (le_roundToGrid hden onGrid_ceiling h)

theorem ofQuotient_of_le {num den : Nat} (hden : 0 < den) (h : 2 * num ≤ den) (s : Bool) :
    ofQuotient s num den = .finite s .zero := by
  rw [ofQuotient_eq_finite_iff]
  exact Nat.eq_zero_of_not_pos fun hpos => Nat.not_lt.mpr h ((roundToGrid_pos_iff hden).mp hpos)

/-! ## Decimals -/

theorem tenPow_le {e e' : Nat} (h : e ≤ e') : Nat.pow 10 e ≤ Nat.pow 10 e' :=
  Nat.pow_le_pow_right (by decide) h

theorem ceiling_le_mul_unity {e : Nat} (h : 309 ≤ e) : ceiling ≤ Nat.pow 10 e * unity := by
  obtain ⟨n, hn, hleast⟩ : ∃ n, n = 309 ∧ ceiling ≤ Nat.pow 10 n * unity :=
    ⟨309, rfl, by decide +kernel⟩
  exact Nat.le_trans hleast (Nat.mul_le_mul_right _ (tenPow_le (hn ▸ h)))

theorem two_pow_mul_unity : 2 ^ 1080 = 2 ^ 6 * unity := by decide +kernel

/-- Below the last magnitude by more than its digits can make up for. -/
theorem mul_unity_le_pow {d e : Nat} (h : d.log2 + 1080 < 3 * e) : 2 * (d * unity) ≤ Nat.pow 10 e := by
  have hpow : 2 ^ (d.log2 + 1 + 1080) ≤ 8 ^ e := by
    rw [show (8 : Nat) = 2 ^ 3 from rfl, ← Nat.pow_mul]
    exact Nat.pow_le_pow_right (by decide) (by omega)
  have hd : d ≤ 2 ^ (d.log2 + 1) := Nat.le_of_lt Nat.lt_log2_self
  calc 2 * (d * unity) ≤ 2 ^ 6 * (d * unity) := Nat.mul_le_mul_right _ (by decide)
    _ = d * (2 ^ 6 * unity) := Nat.mul_left_comm _ _ _
    _ ≤ 2 ^ (d.log2 + 1) * (2 ^ 6 * unity) := Nat.mul_le_mul_right _ hd
    _ = 2 ^ (d.log2 + 1 + 1080) := by rw [← two_pow_mul_unity, ← Nat.pow_add]
    _ ≤ 8 ^ e := hpow
    _ ≤ 10 ^ e := Nat.pow_le_pow_left (by decide) e

/-- **A decimal is rounded from its exact value.** -/
theorem ofDecimal_eq_ofQuotient (s : Bool) (d : Nat) (e : Int) :
    ofDecimal s d e = ofQuotient s (d * 10 ^ e.toNat * unity) (10 ^ (-e).toNat) := by
  cases e with
  | ofNat e =>
    have hexact : ofQuotient s (d * 10 ^ (Int.ofNat e).toNat * unity) (10 ^ (-Int.ofNat e).toNat) =
        ofQuotient s (d * Nat.pow 10 e * unity) 1 := by
      rw [show (-Int.ofNat e).toNat = 0 by simp]
      rfl
    rw [hexact, ofDecimal]
    split
    · rename_i hzero
      rw [hzero, Nat.zero_mul, Nat.zero_mul]
      exact (ofQuotient_of_le Nat.one_pos (Nat.zero_le _) s).symm
    · split
      · rename_i hd he
        refine (ofQuotient_of_ceiling_le Nat.one_pos ?_ s).symm
        rw [Nat.mul_one]
        refine Nat.le_trans (ceiling_le_mul_unity he) (Nat.mul_le_mul_right _ ?_)
        exact Nat.le_mul_of_pos_left _ (Nat.pos_of_ne_zero hd)
      · rfl
  | negSucc e =>
    have hexact : ofQuotient s (d * 10 ^ (Int.negSucc e).toNat * unity)
        (10 ^ (-Int.negSucc e).toNat) = ofQuotient s (d * unity) (Nat.pow 10 (e + 1)) := by
      rw [show (Int.negSucc e).toNat = 0 from rfl, Nat.pow_zero, Nat.mul_one]
      rfl
    rw [hexact, ofDecimal]
    split
    · rename_i he
      exact (ofQuotient_of_le (Nat.pow_pos (by decide)) (mul_unity_le_pow he) s).symm
    · rfl

/-- **Zeros behind the digits are as good as a greater exponent.** -/
theorem ofDecimal_mul_pow (s : Bool) (d k : Nat) (e : Int) :
    ofDecimal s (d * 10 ^ k) e = ofDecimal s d (e + k) := by
  rw [ofDecimal_eq_ofQuotient, ofDecimal_eq_ofQuotient]
  -- The exponents on the left are those on the right and as much again on either side.
  obtain ⟨j, hnum, hden⟩ : ∃ j, k + e.toNat = j + (e + k).toNat ∧
      (-e).toNat = j + (-(e + k)).toNat := ⟨k + e.toNat - (e + k).toNat, by omega, by omega⟩
  rw [Nat.mul_assoc d, ← Nat.pow_add, hnum, hden, Nat.pow_add, Nat.pow_add, Nat.mul_left_comm d,
    Nat.mul_assoc (10 ^ j)]
  exact ofQuotient_mul_left (Nat.pow_pos (by decide)) s _ _

theorem ofDecimal_eq_finite_iff {s s' : Bool} {d : Nat} {e : Int} {m : Magnitude} :
    ofDecimal s d e = .finite s m ↔ ofDecimal s' d e = .finite s' m := by
  rw [ofDecimal_eq_ofQuotient, ofDecimal_eq_ofQuotient, ofQuotient_eq_finite_iff,
    ofQuotient_eq_finite_iff]

theorem ofDecimal_zero (s : Bool) (e : Int) : ofDecimal s 0 e = .finite s .zero := by
  rw [ofDecimal_eq_ofQuotient, Nat.zero_mul, Nat.zero_mul]
  exact ofQuotient_of_le (Nat.pow_pos (by decide)) (Nat.zero_le _) s

end Binary64

/-! ## The shortest decimal -/

namespace Decimal

open Binary64

variable {tie : Tie} {m : Magnitude} {d : Decimal}

/-- A decimal that is the magnitude exactly. -/
theorem readsBack_of_eq {n : Nat} (hn : d.exponent = -n)
    (h : d.digits * unity = m.units * Nat.pow 10 n) : readsBack m d = true := by
  have hpow : 0 < Nat.pow 10 n := Nat.pow_pos (by decide)
  have hround := roundToGrid_mul_left hpow m.units 1
  rw [Nat.mul_one, Nat.mul_comm, ← h, roundToGrid_of_onGrid m.onGrid] at hround
  refine decide_eq_true ?_
  rw [hn, ofDecimal_eq_ofQuotient, ofQuotient_eq_finite_iff, Int.neg_neg, Int.toNat_natCast,
    Int.toNat_neg_natCast, Nat.pow_zero, Nat.mul_one]
  exact hround

theorem readsBack_exact (m : Magnitude) : readsBack m (exact m) = true := by
  obtain ⟨n, hn, hdigits⟩ : ∃ n, n = 1074 ∧ Nat.pow 5 n * unity = Nat.pow 10 n :=
    ⟨1074, rfl, by decide +kernel⟩
  have hexact : exact m = ⟨m.units * Nat.pow 5 n, -n⟩ := by
    subst hn
    rfl
  rw [hexact]
  exact readsBack_of_eq rfl (by rw [Nat.mul_assoc, hdigits])

theorem readsBack_of_neighbour {exponent : Int} (h : neighbour? tie m exponent = some d) :
    readsBack m d = true := by
  unfold neighbour? at h
  simp only at h
  split at h
  case h_1 => cases h
  case h_2 hbelow _ =>
    cases h
    exact hbelow
  case h_3 _ habove =>
    cases h
    exact habove
  case h_4 hbelow habove =>
    split at h
    · cases h
      exact hbelow
    · split at h
      · cases h
        exact habove
      · cases tie with
        | up =>
          cases h
          exact habove
        | toEven =>
          cases h
          split
          · exact hbelow
          · exact habove

/-- **The shortest decimal reads back.** -/
theorem readsBack_shortest (tie : Tie) (m : Magnitude) : readsBack m (shortest tie m) = true := by
  unfold shortest
  cases h : (exponents m).findSome? (neighbour? tie m) with
  | none => exact readsBack_exact m
  | some d =>
    obtain ⟨_, _, hd⟩ := List.exists_of_findSome?_eq_some h
    exact readsBack_of_neighbour hd

theorem ofDecimal_shortest (tie : Tie) (s : Bool) (m : Magnitude) :
    ofDecimal s (shortest tie m).digits (shortest tie m).exponent = .finite s m :=
  ofDecimal_eq_finite_iff.mp (of_decide_eq_true (readsBack_shortest tie m))

/-- Only zero has no digits. -/
theorem digits_shortest_ne_zero (hm : m.units ≠ 0) : (shortest tie m).digits ≠ 0 := by
  intro hzero
  have h := ofDecimal_shortest tie false m
  rw [hzero, ofDecimal_zero, finite.injEq, and_iff_right rfl] at h
  exact hm (congrArg Magnitude.units h).symm

end Decimal

end LatencyLog
