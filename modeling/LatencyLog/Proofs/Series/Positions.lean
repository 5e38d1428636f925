import LatencyLog.Proofs.Binary64.Interpolation
import LatencyLog.Proofs.Series.Ranks

/-!
# Quantiles between ranks

A quantile is computed from the values at two ranks, and each step of that is rounded: the position, how
far it is past the lower rank, and what is computed between the two values. It is between them all the same
(`exists_quantile?_between`), in a list of less than 2^53 values.

The position is rounded, and then nothing more of it is: the last rank is on the grid, so it is not passed,
and so is whatever the position has beyond a whole number (`sub_floorWord`). This is less than 1, which is
what keeps the quantile from passing the upper value (`add_sub_mul`).
-/

namespace LatencyLog

namespace Quotient

theorem floor_le_ceil (num den : Nat) : num / den ≤ ceil num den := by
  unfold ceil
  split
  · exact Nat.le_refl _
  · exact Nat.le_succ _

theorem ceil_le_succ (num den : Nat) : ceil num den ≤ num / den + 1 := by
  unfold ceil
  split
  · exact Nat.le_succ _
  · exact Nat.le_refl _

theorem ceil_le {num den k : Nat} (h : num ≤ k * den) : ceil num den ≤ k := by
  have hfloor : num / den ≤ k := Nat.div_le_of_le_mul (by rwa [Nat.mul_comm])
  unfold ceil
  split
  · exact hfloor
  · rename_i hrest
    refine Nat.lt_of_le_of_ne hfloor fun heq => hrest ?_
    have hdiv := Nat.div_add_mod' num den
    rw [heq] at hdiv
    omega

theorem le_ceil_mul {den : Nat} (hden : 0 < den) (num : Nat) : num ≤ ceil num den * den := by
  have hdiv := Nat.div_add_mod' num den
  have hmod := Nat.mod_lt num hden
  unfold ceil
  split
  · omega
  · rw [Nat.succ_mul]
    omega

theorem ceil_mono {a b den : Nat} (hden : 0 < den) (h : a ≤ b) : ceil a den ≤ ceil b den :=
  ceil_le (Nat.le_trans h (le_ceil_mul hden b))

end Quotient

/-! ## Whole numbers and what is left -/

namespace Binary64

section Words

variable {m : Magnitude}

theorem floorWord_finite (h : m.units ≤ maxWord * unity) :
    (finite false m).floorWord = m.units / unity :=
  Nat.min_eq_right (Nat.div_le_of_le_mul (by rwa [Nat.mul_comm]))

theorem ceilWord_finite (h : m.units ≤ maxWord * unity) :
    (finite false m).ceilWord = Quotient.ceil m.units unity :=
  Nat.min_eq_right (Quotient.ceil_le h)

theorem floorWord_le_ceilWord (x : Binary64) : x.floorWord ≤ x.ceilWord := by
  cases x with
  | nan s f => exact Nat.le_refl _
  | infinity s => exact Nat.le_refl _
  | finite s m =>
    rw [floorWord, ceilWord, toWord, toWord]
    have hceil := Quotient.floor_le_ceil m.units unity
    split <;> omega

theorem ceilWord_le_succ (x : Binary64) : x.ceilWord ≤ x.floorWord + 1 := by
  cases x with
  | nan s f => exact Nat.le_succ _
  | infinity s => exact Nat.le_succ _
  | finite s m =>
    rw [floorWord, ceilWord, toWord, toWord]
    have hceil := Quotient.ceil_le_succ m.units unity
    split <;> omega

/-- Among the numbers below 2^53 the gap is no more than 1. -/
theorem gap_dvd_unity {n : Nat} (h : n < 2 ^ 53 * unity) : gap n ∣ unity := by
  have hgap : gap (2 ^ 53 * unity - 1) = unity := by decide +kernel
  rw [← hgap]
  exact gap_dvd_gap (Nat.le_sub_one_of_lt h)

/-- What is beyond a whole number is on the grid there. -/
theorem onGrid_mod_unity {n : Nat} (hn : OnGrid n) (h : n < 2 ^ 53 * unity) : OnGrid (n % unity) := by
  refine Nat.dvd_trans (gap_dvd_gap (Nat.mod_le _ _)) ?_
  exact (Nat.dvd_mod_iff (gap_dvd_unity h)).mpr hn

/-- **What a number has beyond a whole one is exact.** -/
theorem sub_floorWord (h : m.units < 2 ^ 53 * unity) :
    ∃ f : Magnitude, finite false m - ofNat (m.units / unity) = finite false f ∧
      f.units = m.units % unity := by
  have hfloor : m.units / unity ≤ 2 ^ 53 := Nat.div_le_of_le_mul (by rw [Nat.mul_comm]; omega)
  obtain ⟨w, hw, hwunits⟩ := ofNat_exact hfloor
  have hmod : m.units - w.units = m.units % unity := by
    have hdiv := Nat.div_add_mod' m.units unity
    omega
  have hround : roundToGrid (m.units % unity) 1 = m.units % unity :=
    roundToGrid_of_onGrid (onGrid_mod_unity m.onGrid h)
  have hle : w.units ≤ m.units := hwunits ▸ Nat.div_mul_le_self _ _
  obtain ⟨f, hf, hfunits⟩ : ∃ f : Magnitude, ofQuotient false (m.units % unity) 1 = finite false f ∧
      f.units = roundToGrid (m.units % unity) 1 := by
    refine exists_ofQuotient_eq_finite ?_ false
    rw [hround]
    exact Nat.lt_of_le_of_lt (Nat.mod_le _ _) m.lt_ceiling
  refine ⟨f, ?_, hfunits.trans hround⟩
  rw [hw, finite_sub_finite_of_le hle, hmod, hf]

theorem one_le_floorWord_ofQuotient {num den : Nat} (h : unity ≤ roundToGrid num den) :
    1 ≤ (ofQuotient false num den).floorWord := by
  have hmax : 1 ≤ maxWord := by decide
  unfold ofQuotient
  split
  · exact Nat.le_min.mpr ⟨hmax, Nat.div_pos h unity_pos⟩
  · exact hmax

/-- A hundredth of a hundred is one at least, and there is no limit to what it is a hundredth of. -/
theorem one_le_floorWord_ofNat_mul {n : Nat} (hn : 100 ≤ n) (hm : unity ≤ 100 * m.units) :
    1 ≤ (ofNat n * finite false m).floorWord := by
  have hcount : 100 * unity ≤ roundToGrid (n * unity) 1 := by
    refine le_roundToGrid Nat.one_pos (onGrid_mul_unity (by decide)) ?_
    rw [Nat.mul_one]
    exact Nat.mul_le_mul_right unity hn
  rw [ofNat, ofQuotient]
  split
  · rw [finite_mul_finite_false]
    apply one_le_floorWord_ofQuotient
    refine le_roundToGrid unity_pos onGrid_unity ?_
    calc unity * unity ≤ unity * (100 * m.units) := Nat.mul_le_mul_left _ hm
      _ = 100 * unity * m.units := by rw [← Nat.mul_assoc, Nat.mul_comm unity]
      _ ≤ roundToGrid (n * unity) 1 * m.units := Nat.mul_le_mul_right _ hcount
  · have hpos := unity_pos
    have hproduct : infinity false * finite false m = infinity false := if_neg (by omega)
    rw [hproduct]
    decide

end Words

end Binary64

namespace Series

open Binary64

/-! ## Positions -/

/-- The last rank is not passed by a part of it. -/
theorem exists_position {last : Nat} (hlast : last < 2 ^ 53) {q : Magnitude} (hq : q.units ≤ unity) :
    ∃ p : Magnitude, ofNat last * finite false q = finite false p ∧
      p.units = roundToGrid (last * q.units) 1 ∧ p.units ≤ last * unity := by
  obtain ⟨m, hm, hmunits⟩ := ofNat_exact (Nat.le_of_lt hlast)
  have hle : roundToGrid (m.units * q.units) unity ≤ m.units :=
    roundToGrid_le_of_le_mul unity_pos m.onGrid (Nat.mul_le_mul_left _ hq)
  obtain ⟨p, hp, hpunits⟩ : ∃ p : Magnitude,
      ofQuotient false (m.units * q.units) unity = finite false p ∧
        p.units = roundToGrid (m.units * q.units) unity :=
    exists_ofQuotient_eq_finite (Nat.lt_of_le_of_lt hle m.lt_ceiling) false
  refine ⟨p, ?_, ?_, ?_⟩
  · rw [hm, finite_mul_finite_false, hp]
  · rw [hpunits, hmunits, ← roundToGrid_mul_left unity_pos (last * q.units), Nat.mul_one,
      Nat.mul_comm last, Nat.mul_assoc]
  · rw [hpunits, ← hmunits]
    exact hle

/-- So neither rank around it is beyond the last. -/
theorem words_of_le {last : Nat} (hlast : last < 2 ^ 53) {p : Magnitude} (h : p.units ≤ last * unity) :
    (finite false p).floorWord = p.units / unity ∧
      (finite false p).ceilWord = Quotient.ceil p.units unity ∧
      Quotient.ceil p.units unity ≤ last := by
  have hmax : 2 ^ 53 ≤ maxWord := by decide +kernel
  have hwords : p.units ≤ maxWord * unity := Nat.le_trans h (Nat.mul_le_mul_right _ (by omega))
  exact ⟨floorWord_finite hwords, ceilWord_finite hwords, Quotient.ceil_le h⟩

/-! ## Values at a position -/

/-- What is computed from two values, at a position after the first. -/
theorem exists_between {a b p : Magnitude} (hab : a.units ≤ b.units) (hp : p.units < 2 ^ 53 * unity) :
    ∃ x : Magnitude, finite false a + (finite false b - finite false a) *
        (finite false p - ofNat (p.units / unity)) = finite false x ∧
      x.units = interpolate a.units b.units (p.units % unity) ∧
      a.units ≤ x.units ∧ x.units ≤ b.units := by
  obtain ⟨f, hf, hfunits⟩ := sub_floorWord hp
  have hlt : f.units < unity := hfunits ▸ Nat.mod_lt _ unity_pos
  obtain ⟨x, hx, hxunits⟩ := add_sub_mul hab hlt
  refine ⟨x, by rw [hf, hx], by rw [hxunits, hfunits], ?_, ?_⟩
  · rw [hxunits]
    exact le_interpolate a.onGrid (Nat.le_of_lt a.lt_ceiling) _ _
  · rw [hxunits]
    exact interpolate_le b.onGrid (Nat.le_of_lt b.lt_ceiling) hab f.onGrid hlt

/-- What is read at the two ranks is what the quantile is computed from. -/
theorem quantile?_of_getElem? {sorted : List Binary64} {q position a b : Binary64}
    (hposition : ofNat (sorted.length - 1) * q.clamp .zero .one = position)
    (hlower : sorted[position.floorWord]? = some a)
    (hupper : sorted[min position.ceilWord (sorted.length - 1)]? = some b) :
    quantile? sorted q = some (a + (b - a) * (position - ofNat position.floorWord)) := by
  have hempty : ¬ sorted.isEmpty = true := by
    intro hnil
    rw [List.isEmpty_iff.mp hnil] at hlower
    cases hlower
  simp only [quantile?, if_neg hempty, hposition, hlower, hupper]

section Sorted

variable {sorted : List Binary64}

/-- Between two ranks it is computed from the values there, with what the position is past the first. -/
theorem exists_quantile?_of_between {q : Binary64} {p a b : Magnitude} (rank : Nat)
    (hposition : ofNat (sorted.length - 1) * q.clamp .zero .one = finite false p)
    (hlength : sorted.length ≤ 2 ^ 53) (hafter : rank * unity < p.units)
    (hbefore : p.units < (rank + 1) * unity) (ha : sorted[rank]? = some (finite false a))
    (hb : sorted[rank + 1]? = some (finite false b)) (hab : a.units ≤ b.units) :
    ∃ x : Magnitude, quantile? sorted q = some (finite false x) ∧
      x.units = interpolate a.units b.units (p.units - rank * unity) ∧
      a.units ≤ x.units ∧ x.units ≤ b.units := by
  obtain ⟨hrank, _⟩ := List.getElem?_eq_some_iff.mp hb
  have hdiv : p.units / unity = rank := Nat.div_eq_of_lt_le (Nat.le_of_lt hafter) hbefore
  have hmod : p.units % unity = p.units - rank * unity := by
    rw [Nat.mod_eq_sub_div_mul, hdiv]
  have hceil : Quotient.ceil p.units unity = rank + 1 := by
    rw [Quotient.ceil, if_neg (by omega), hdiv]
  have hlast : rank + 1 < 2 ^ 53 := Nat.lt_of_lt_of_le hrank hlength
  obtain ⟨hfloorWord, hceilWord, _⟩ := words_of_le hlast (Nat.le_of_lt hbefore)
  rw [hdiv] at hfloorWord
  rw [hceil] at hceilWord
  have hp : p.units < 2 ^ 53 * unity :=
    Nat.lt_of_lt_of_le hbefore (Nat.mul_le_mul_right unity (by omega))
  obtain ⟨x, hx, hxunits, hlow, hhigh⟩ := exists_between hab hp
  have hquantile := quantile?_of_getElem? hposition (a := finite false a) (b := finite false b)
    (by rwa [hfloorWord]) (by rwa [hceilWord, Nat.min_eq_left (by omega)])
  rw [hdiv] at hx
  rw [hfloorWord, hx] at hquantile
  exact ⟨x, hquantile, by rw [hxunits, hmod], hlow, hhigh⟩

theorem le_of_rank_le (husable : ∀ x ∈ sorted, x.isUsable = true)
    (hsorted : sorted.Pairwise fun x y => x.le y = true) {i j : Nat} (hij : i ≤ j) {x y : Binary64}
    (hx : sorted[i]? = some x) (hy : sorted[j]? = some y) : x.le y = true := by
  rcases Nat.eq_or_lt_of_le hij with rfl | hlt
  · obtain rfl : x = y := Option.some.inj (hx.symm.trans hy)
    obtain ⟨m, rfl, _⟩ := exists_of_isUsable (husable x (List.mem_of_getElem? hx))
    exact finite_le_finite.mpr (Nat.le_refl _)
  · obtain ⟨hi, rfl⟩ := List.getElem?_eq_some_iff.mp hx
    obtain ⟨hj, rfl⟩ := List.getElem?_eq_some_iff.mp hy
    exact List.pairwise_iff_getElem.mp hsorted i j hi hj hlt

/-- **A quantile is between the values at the ranks around it.** -/
theorem exists_quantile?_between (hne : sorted ≠ []) (hlength : sorted.length < 2 ^ 53)
    (husable : ∀ x ∈ sorted, x.isUsable = true)
    (hsorted : sorted.Pairwise fun x y => x.le y = true) {q : Binary64} {m : Magnitude}
    (hq : q.clamp .zero .one = finite false m) (hm : m.units ≤ unity) :
    ∃ a b x, sorted[(ofNat (sorted.length - 1) * q.clamp .zero .one).floorWord]? = some a ∧
      sorted[(ofNat (sorted.length - 1) * q.clamp .zero .one).ceilWord]? = some b ∧
      quantile? sorted q = some x ∧ a.le x = true ∧ x.le b = true := by
  have hlast : sorted.length - 1 < sorted.length := Nat.sub_one_lt_of_lt (List.length_pos_iff.mpr hne)
  obtain ⟨p, hp, _, hple⟩ := exists_position (Nat.lt_trans hlast hlength) hm
  obtain ⟨hfloor, hceil, hceil_le⟩ := words_of_le (Nat.lt_trans hlast hlength) hple
  have hranks := Quotient.floor_le_ceil p.units unity
  have ha : sorted[p.units / unity]? = some sorted[p.units / unity] :=
    List.getElem?_eq_getElem (by omega)
  have hb : sorted[Quotient.ceil p.units unity]? = some sorted[Quotient.ceil p.units unity] :=
    List.getElem?_eq_getElem (by omega)
  have hab := le_of_rank_le husable hsorted hranks ha hb
  obtain ⟨a, haeq, _⟩ := exists_of_isUsable (husable _ (List.mem_of_getElem? ha))
  obtain ⟨b, hbeq, _⟩ := exists_of_isUsable (husable _ (List.mem_of_getElem? hb))
  rw [haeq] at ha hab
  rw [hbeq] at hb hab
  obtain ⟨x, hx, _, hlow, hhigh⟩ := exists_between (finite_le_finite.mp hab) (Nat.lt_of_le_of_lt hple
    (Nat.mul_lt_mul_of_pos_right (by omega) unity_pos))
  have hquantile := quantile?_of_getElem? (hq ▸ hp) (a := finite false a) (b := finite false b)
    (by rwa [hfloor]) (by rwa [hceil, Nat.min_eq_left hceil_le])
  rw [hfloor, hx] at hquantile
  rw [hq, hp, hfloor, hceil]
  exact ⟨_, _, _, ha, hb, hquantile, finite_le_finite.mpr hlow, finite_le_finite.mpr hhigh⟩

end Sorted

end Series

end LatencyLog
