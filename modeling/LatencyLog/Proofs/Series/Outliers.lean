import LatencyLog.Proofs.Series.Trimming

/-!
# Two outliers

A series of one value, but for a smaller and a greater one, looks as if trimming could not go wrong. It goes
by ranks, however. A percentile is a hundredth of the way along the ranks from an end, and only as long as
that is not yet a whole rank is it between an outlier and the value. So *the two are trimmed from a hundred
values at most* (`TwoOutliers.trim_of_le`). From a hundred and one on both percentiles are the value, nothing
is strictly between them, and the series stays as it is (`TwoOutliers.trim_of_lt`, and
`TwoOutliers.trim_of_ge` for series so long that positions are not exact).

Up to there rounding has a say. The nearer there are to be a hundred values, the nearer a percentile is to
the value, and it can be rounded to it; then nothing is between either. How far it is away before that is
known by the hundredths of a rank that are missing (`low_position`, `high_position`), and with as many
hundredths of a difference as make a gap it stays away (`interpolate_lt_of_hundredths`,
`lt_interpolate_of_hundredths`).
-/

namespace LatencyLog.Series

open Binary64

/-! ## One value among two others -/

/-- All values of a series are one, any number of times, but for a smaller and a greater one. -/
structure TwoOutliers (points : List Point) (least value greatest : Binary64) (k : Nat) : Prop where
  perm : (points.map Point.value).Perm (least :: greatest :: List.replicate k value)
  pos : 1 ≤ k
  usable_least : least.isUsable = true
  usable_value : value.isUsable = true
  usable_greatest : greatest.isUsable = true
  least_lt : least.lt value = true
  lt_greatest : value.lt greatest = true

/-- The values in order. -/
def flanked (least value greatest : Binary64) (k : Nat) : List Binary64 :=
  least :: (List.replicate k value ++ [greatest])

section Flanked

variable {a b c : Binary64} {k : Nat}

theorem length_flanked : (flanked a c b k).length = k + 2 := by
  rw [flanked, List.length_cons, List.length_append, List.length_replicate, List.length_singleton]

theorem getElem?_flanked_of_le {i : Nat} (hi : 1 ≤ i) (hik : i ≤ k) : (flanked a c b k)[i]? = some c := by
  obtain ⟨j, rfl⟩ := Nat.exists_eq_add_of_le' hi
  rw [flanked, List.getElem?_cons_succ, List.getElem?_append_left (by rw [List.length_replicate]; omega),
    List.getElem?_replicate_of_lt hik]

theorem getElem?_flanked_last : (flanked a c b k)[k + 1]? = some b := by
  rw [flanked, List.getElem?_cons_succ, List.getElem?_append_right (Nat.le_of_eq List.length_replicate),
    List.length_replicate, Nat.sub_self, List.getElem?_cons_zero]

end Flanked

namespace TwoOutliers

variable {points : List Point} {a b c : Binary64} {k : Nat}

theorem value_cases (h : TwoOutliers points a c b k) {x : Point} (hx : x ∈ points) :
    x.value = a ∨ x.value = b ∨ x.value = c := by
  have hmem := h.perm.mem_iff.mp (List.mem_map_of_mem hx)
  rw [List.mem_cons, List.mem_cons] at hmem
  exact hmem.imp_right (Or.imp_right List.eq_of_mem_replicate)

theorem usable (h : TwoOutliers points a c b k) {x : Point} (hx : x ∈ points) :
    x.value.isUsable = true := by
  rcases h.value_cases hx with hvalue | hvalue | hvalue
  · rw [hvalue, h.usable_least]
  · rw [hvalue, h.usable_greatest]
  · rw [hvalue, h.usable_value]

theorem length_eq (h : TwoOutliers points a c b k) : points.length = k + 2 := by
  have hlength := h.perm.length_eq
  rwa [List.length_map, List.length_cons, List.length_cons, List.length_replicate] at hlength

theorem usable_values (h : TwoOutliers points a c b k) :
    ∀ x ∈ points.map Point.value, x.isUsable = true :=
  List.forall_mem_map.mpr fun _ => h.usable

theorem pairwise_flanked (h : TwoOutliers points a c b k) :
    (flanked a c b k).Pairwise fun x y => x.le y = true := by
  have hac := le_of_lt h.least_lt
  have hcb := le_of_lt h.lt_greatest
  have hab := le_of_lt (lt_of_lt_of_le h.least_lt hcb)
  obtain ⟨m, rfl, _⟩ := exists_of_isUsable h.usable_value
  have hsame : (List.replicate k (finite false m)).Pairwise fun x y => x.le y = true :=
    List.pairwise_replicate.mpr (Or.inr (finite_le_finite.mpr (Nat.le_refl _)))
  refine List.pairwise_cons.mpr ⟨fun x hx => ?_, ?_⟩
  · rcases List.mem_append.mp hx with hx | hx
    · rwa [List.eq_of_mem_replicate hx]
    · rwa [List.mem_singleton.mp hx]
  · refine List.pairwise_append.mpr ⟨hsame, List.pairwise_singleton _ _, fun x hx y hy => ?_⟩
    rwa [List.eq_of_mem_replicate hx, List.mem_singleton.mp hy]

/-- The values in order are the value between the others. -/
theorem sort_eq (h : TwoOutliers points a c b k) : sort (points.map Point.value) = flanked a c b k := by
  refine sort_eq_of_perm h.usable_values (h.perm.trans ?_) h.pairwise_flanked
  exact List.Perm.cons a (List.perm_append_singleton b _).symm

/-- Bounds on either side of the value have it between them, unless one of them is the value. -/
theorem strictlyBetween_eq (h : TwoOutliers points a c b k) {low high : Binary64} (hlow : a.le low = true)
    (hhigh : high.le b = true) :
    strictlyBetween low high points =
      if low.lt c && c.lt high then points.filter fun x => x.value = c else [] := by
  have htest : ∀ x ∈ points, (low.lt x.value && x.value.lt high) =
      ((low.lt c && c.lt high) && decide (x.value = c)) := by
    intro x hx
    rcases h.value_cases hx with hvalue | hvalue | hvalue
    · rw [hvalue, not_lt_of_le hlow, decide_eq_false (ne_of_lt h.least_lt), Bool.false_and, Bool.and_false]
    · rw [hvalue, not_lt_of_le hhigh, decide_eq_false (ne_of_lt h.lt_greatest).symm, Bool.and_false,
        Bool.and_false]
    · rw [hvalue, decide_eq_true rfl, Bool.and_true]
  rw [strictlyBetween, List.filter_congr htest]
  split
  · rename_i hinside
    rw [hinside]
    exact List.filter_congr fun x _ => Bool.true_and _
  · rename_i hinside
    rw [eq_false_of_ne_true hinside]
    exact List.filter_eq_nil_iff.mpr fun x _ => Bool.false_ne_true

end TwoOutliers

/-! ## Positions of the percentiles -/

section Positions

variable {k : Nat}

theorem mul_left_le {n u v x y : Nat} (h : u * x ≤ v * y) : u * (n * x) ≤ v * (n * y) := by
  rw [Nat.mul_left_comm u, Nat.mul_left_comm v]
  exact Nat.mul_le_mul_left n h

/-- Before the second rank, by as many hundredths as there are ranks missing to a hundred. -/
theorem low_position (hk : k ≤ 98) :
    ∃ p : Magnitude, ofNat (k + 1) * trimLow = finite false p ∧ 0 < p.units ∧ p.units < unity ∧
      15 * ((99 - k) * unity) ≤ 1600 * (unity - p.units) := by
  obtain ⟨m, hm, hlow, hhigh⟩ := trimLow_clamp
  have hexact : k + 1 < 2 ^ 53 := by omega
  obtain ⟨p, hp, hpunits, -⟩ := exists_position hexact (q := m) (by omega)
  have hround := two_pow_mul_roundToGrid_le ((k + 1) * m.units)
  have hround' := le_two_pow_mul_roundToGrid ((k + 1) * m.units)
  rw [← hpunits] at hround hround'
  have hproduct : 1 * ((k + 1) * unity) ≤ 100 * ((k + 1) * m.units) := mul_left_le (by omega)
  have hproduct' : 1000000 * ((k + 1) * m.units) ≤ 10001 * ((k + 1) * unity) := mul_left_le hhigh
  rw [Nat.succ_mul k unity] at hproduct hproduct'
  have hunity := unity_pos
  have hlast := Nat.mul_le_mul_right unity hk
  rw [← trimLow_clamp_eq, hm, Nat.sub_mul]
  exact ⟨p, hp, by omega, by omega, by omega⟩

/-- And after the last rank but one by as many. -/
theorem high_position (hk : k ≤ 98) :
    ∃ p : Magnitude, ofNat (k + 1) * trimHigh = finite false p ∧ k * unity < p.units ∧
      p.units < (k + 1) * unity ∧ 15 * ((99 - k) * unity) ≤ 1600 * (p.units - k * unity) := by
  obtain ⟨m, hm, hlow, hhigh⟩ := trimHigh_clamp
  have hexact : k + 1 < 2 ^ 53 := by omega
  obtain ⟨p, hp, hpunits, -⟩ := exists_position hexact (q := m) (by omega)
  have hround := two_pow_mul_roundToGrid_le ((k + 1) * m.units)
  have hround' := le_two_pow_mul_roundToGrid ((k + 1) * m.units)
  rw [← hpunits] at hround hround'
  have hproduct : 989999 * ((k + 1) * unity) ≤ 1000000 * ((k + 1) * m.units) := mul_left_le hlow
  have hproduct' : 100 * ((k + 1) * m.units) ≤ 99 * ((k + 1) * unity) := mul_left_le hhigh
  rw [Nat.succ_mul k unity] at hproduct hproduct'
  have hunity := unity_pos
  have hlast := Nat.mul_le_mul_right unity hk
  rw [← trimHigh_clamp_eq, hm, Nat.sub_mul, Nat.succ_mul k unity]
  exact ⟨p, hp, by omega, by omega, by omega⟩

end Positions

/-! ## What rounding leaves of a hundredth -/

section Hundredths

variable {a b e g n t : Nat}

theorem hundredths_mul_unity (h : 100 * g ≤ e * n) : 100 * (g * unity) ≤ n * (e * unity) :=
  calc 100 * (g * unity) = 100 * g * unity := (Nat.mul_assoc _ _ _).symm
    _ ≤ e * n * unity := Nat.mul_le_mul_right unity h
    _ = n * (e * unity) := by rw [Nat.mul_comm e, Nat.mul_assoc]

/-- A part that is short by hundredths of a difference, of which there are enough for a gap, does not reach
the end. One in sixteen of them is left to the rounding of the position. -/
theorem interpolate_lt_of_hundredths (he : 0 < e) (ht : 15 * (e * unity) ≤ 1600 * (unity - t))
    (hgap : 100 * gap (b - 1) ≤ e * (b - a)) : interpolate a b t < b := by
  apply interpolate_lt
  generalize b - a = n at hgap ⊢
  have hpos := gap_pos (b - 1)
  generalize gap (b - 1) = g at hgap hpos ⊢
  have hle : t ≤ unity := by
    have hshort := Nat.mul_pos he unity_pos
    omega
  have hpart := two_pow_mul_part_le hle n
  have hproduct := Nat.mul_le_mul_left n hle
  have hshort : 15 * (n * (e * unity)) ≤ 1600 * (n * (unity - t)) := mul_left_le ht
  rw [Nat.mul_sub] at hshort
  have hfew : n * unity ≤ n * (e * unity) := Nat.mul_le_mul_left n (Nat.le_mul_of_pos_left _ he)
  have hroom := hundredths_mul_unity hgap
  -- The part is short by seven eighths of the gap, but for half a unit; and it is short by whole units.
  have hunits : (7 * g + 8 * part n t) * unity ≤ (8 * n + 4) * unity := by
    rw [Nat.add_mul, Nat.add_mul, Nat.mul_assoc, Nat.mul_assoc, Nat.mul_assoc]
    omega
  have hcount := Nat.le_of_mul_le_mul_right hunits unity_pos
  omega

/-- And one that has them leaves the start. -/
theorem lt_interpolate_of_hundredths (ha : OnGrid a) (hlt : a < ceiling) (he : 0 < e) (hle : t ≤ unity)
    (ht : 15 * (e * unity) ≤ 1600 * t) (hgap : 100 * gap a ≤ e * (b - a)) : a < interpolate a b t := by
  apply lt_interpolate ha hlt
  generalize b - a = n at hgap ⊢
  have hpos := gap_pos a
  generalize gap a = g at hgap hpos ⊢
  have hpart := le_two_pow_mul_part hle n
  have hlong : 15 * (n * (e * unity)) ≤ 1600 * (n * t) := mul_left_le ht
  have hfew : n * unity ≤ n * (e * unity) := Nat.mul_le_mul_left n (Nat.le_mul_of_pos_left _ he)
  have hroom := hundredths_mul_unity hgap
  have hunits : 7 * g * unity ≤ (8 * part n t + 4) * unity := by
    rw [Nat.add_mul, Nat.mul_assoc, Nat.mul_assoc]
    omega
  have hcount := Nat.le_of_mul_le_mul_right hunits unity_pos
  omega

end Hundredths

/-! ## The percentiles -/

section Percentiles

variable {a b c : Magnitude} {k : Nat}

theorem exists_low (hpos : 1 ≤ k) (hk : k ≤ 98) (hac : a.units ≤ c.units) :
    ∃ low : Magnitude,
      quantile? (flanked (finite false a) (finite false c) (finite false b) k) trimLow =
        some (finite false low) ∧ a.units ≤ low.units ∧ low.units ≤ c.units ∧
      (100 * gap (c.units - 1) ≤ (99 - k) * (c.units - a.units) → low.units < c.units) := by
  obtain ⟨p, hp, hafter, hbefore, hshort⟩ := low_position hk
  have hposition : ofNat ((flanked (finite false a) (finite false c) (finite false b) k).length - 1) *
      trimLow.clamp .zero .one = finite false p := by
    rw [length_flanked, trimLow_clamp_eq]
    exact hp
  obtain ⟨low, hlow, hunits, hle, hle'⟩ := exists_quantile?_of_between 0 hposition
    (by rw [length_flanked]; omega) (by omega) (by omega) rfl
    (getElem?_flanked_of_le (Nat.le_refl 1) hpos) hac
  refine ⟨low, hlow, hle, hle', fun hgap => ?_⟩
  rw [hunits, Nat.zero_mul, Nat.sub_zero]
  exact interpolate_lt_of_hundredths (by omega) hshort hgap

theorem exists_high (hpos : 1 ≤ k) (hk : k ≤ 98) (hcb : c.units ≤ b.units) :
    ∃ high : Magnitude,
      quantile? (flanked (finite false a) (finite false c) (finite false b) k) trimHigh =
        some (finite false high) ∧ c.units ≤ high.units ∧ high.units ≤ b.units ∧
      (100 * gap c.units ≤ (99 - k) * (b.units - c.units) → c.units < high.units) := by
  obtain ⟨p, hp, hafter, hbefore, hlong⟩ := high_position hk
  have hposition : ofNat ((flanked (finite false a) (finite false c) (finite false b) k).length - 1) *
      trimHigh.clamp .zero .one = finite false p := by
    rw [length_flanked, trimHigh_clamp_eq]
    exact hp
  obtain ⟨high, hhigh, hunits, hle, hle'⟩ := exists_quantile?_of_between k hposition
    (by rw [length_flanked]; omega) hafter hbefore (getElem?_flanked_of_le hpos (Nat.le_refl k))
    getElem?_flanked_last hcb
  refine ⟨high, hhigh, hle, hle', fun hgap => ?_⟩
  rw [hunits]
  refine lt_interpolate_of_hundredths c.onGrid c.lt_ceiling (by omega) ?_ hlong hgap
  rw [Nat.succ_mul] at hbefore
  omega

end Percentiles

/-! ## Up to a hundred values -/

namespace TwoOutliers

variable {points : List Point} {a b c : Binary64} {k : Nat}

theorem ne_nil (h : TwoOutliers points a c b k) : points ≠ [] := by
  rintro rfl
  exact absurd h.length_eq (Nat.succ_ne_zero _).symm

theorem filter_ne_nil (h : TwoOutliers points a c b k) : points.filter (fun x => x.value = c) ≠ [] := by
  have hmem : c ∈ points.map Point.value := by
    refine h.perm.mem_iff.mpr (List.mem_cons_of_mem _ (List.mem_cons_of_mem _ ?_))
    exact List.mem_replicate.mpr ⟨Nat.ne_of_gt h.pos, rfl⟩
  obtain ⟨x, hx, hvalue⟩ := List.mem_map.mp hmem
  exact List.ne_nil_of_mem (List.mem_filter.mpr ⟨hx, decide_eq_true hvalue⟩)

/-- Each percentile is between one of the two and the value, and the value is kept if it is neither. -/
theorem trim_of_le (h : TwoOutliers points a c b k) (hk : k ≤ 98) :
    ∃ low high, quantile? (sort (points.map Point.value)) trimLow = some low ∧
      quantile? (sort (points.map Point.value)) trimHigh = some high ∧
      (100 * gap (c.height - 1) ≤ (99 - k) * (c.height - a.height) → low ≠ c) ∧
      (100 * gap c.height ≤ (99 - k) * (b.height - c.height) → high ≠ c) ∧
      trim points = if low = c ∨ high = c then points else points.filter fun x => x.value = c := by
  obtain ⟨a, rfl, _⟩ := exists_of_isUsable h.usable_least
  obtain ⟨b, rfl, _⟩ := exists_of_isUsable h.usable_greatest
  obtain ⟨c, rfl, _⟩ := exists_of_isUsable h.usable_value
  obtain ⟨low, hlow, hle, hle', hlt⟩ :=
    exists_low (b := b) h.pos hk (Nat.le_of_lt (finite_lt_finite.mp h.least_lt))
  obtain ⟨high, hhigh, hge, hge', hgt⟩ :=
    exists_high (a := a) h.pos hk (Nat.le_of_lt (finite_lt_finite.mp h.lt_greatest))
  rw [← h.sort_eq] at hlow hhigh
  rw [height_finite, height_finite, height_finite]
  refine ⟨_, _, hlow, hhigh, fun hgap => ?_, fun hgap => ?_, ?_⟩
  · exact ne_of_lt (finite_lt_finite.mpr (hlt hgap))
  · exact (ne_of_lt (finite_lt_finite.mpr (hgt hgap))).symm
  · have hinside :
        ((finite false low).lt (finite false c) && (finite false c).lt (finite false high)) = true ↔
          ¬ (finite false low = finite false c ∨ finite false high = finite false c) := by
      rw [Bool.and_eq_true_iff, finite_lt_finite, finite_lt_finite, finite_inj, finite_inj]
      omega
    rw [trim_eq_of_quantile? hlow hhigh,
      h.strictlyBetween_eq (finite_le_finite.mpr hle) (finite_le_finite.mpr hge')]
    by_cases hrounded : finite false low = finite false c ∨ finite false high = finite false c
    · rw [if_pos hrounded, if_neg (fun hlt => hinside.mp hlt hrounded), if_pos List.isEmpty_nil]
    · rw [if_neg hrounded, if_pos (hinside.mpr hrounded), if_neg]
      exact fun hempty => h.filter_ne_nil (List.isEmpty_iff.mp hempty)

/-! ## More than a hundred values -/

/-- Nothing is strictly between bounds that are the value or above it, and not above the greatest one. -/
theorem trim_eq_self (h : TwoOutliers points a c b k) {low high : Binary64}
    (hlow : quantile? (sort (points.map Point.value)) trimLow = some low)
    (hhigh : quantile? (sort (points.map Point.value)) trimHigh = some high)
    (hleast : low.lt a = false) (hvalue : low.lt c = false) (hgreatest : b.lt high = false) :
    trim points = points := by
  have hnone : strictlyBetween low high points = [] := by
    refine List.filter_eq_nil_iff.mpr fun x hx hlt => ?_
    rw [Bool.and_eq_true_iff] at hlt
    rcases h.value_cases hx with hx | hx | hx
    · rw [hx, hleast] at hlt
      cases hlt.1
    · rw [hx, hgreatest] at hlt
      cases hlt.2
    · rw [hx, hvalue] at hlt
      cases hlt.1
  rw [trim_eq_of_quantile? hlow hhigh, hnone, if_pos List.isEmpty_nil]

theorem usable_flanked (h : TwoOutliers points a c b k) : ∀ x ∈ flanked a c b k, x.isUsable = true :=
  fun x hx => h.usable_values x ((sort_perm _).mem_iff.mp (h.sort_eq ▸ hx))

/-- The lower percentile is from the second rank on, and there is nothing above the last. -/
theorem trim_of_lt (h : TwoOutliers points a c b k) (hk : 99 ≤ k) (hlength : k + 2 < 2 ^ 53) :
    trim points = points := by
  obtain ⟨outer, _, _, outer', low, high, hranks, hlow, hhigh, ⟨hle, _⟩, _, hle'⟩ :=
    exists_ranks h.ne_nil (by rwa [h.length_eq]) fun x hx => h.usable hx
  have hfloor := hranks.lowFloor
  have hceil := hranks.highCeil
  rw [h.length_eq, h.sort_eq] at hfloor hceil
  have hrank : 1 ≤ (ofNat (k + 2 - 1) * trimLow).floorWord := by
    obtain ⟨m, hm, hhundredth, _⟩ := trimLow_clamp
    rw [← trimLow_clamp_eq, hm]
    exact one_le_floorWord_ofNat_mul (by omega) hhundredth
  have hrank' : (ofNat (k + 2 - 1) * trimHigh).ceilWord ≤ k + 1 := by
    obtain ⟨hlt, _⟩ := List.getElem?_eq_some_iff.mp hceil
    rw [length_flanked] at hlt
    exact Nat.le_of_lt_succ hlt
  have hvalue : c.le low = true := by
    refine le_trans ?_ hle
    exact le_of_rank_le h.usable_flanked h.pairwise_flanked hrank
      (getElem?_flanked_of_le (Nat.le_refl 1) h.pos) hfloor
  have hgreatest : high.le b = true := by
    refine le_trans hle' ?_
    exact le_of_rank_le h.usable_flanked h.pairwise_flanked hrank' hceil getElem?_flanked_last
  exact h.trim_eq_self hlow hhigh (not_lt_of_le (le_trans (le_of_lt h.least_lt) hvalue))
    (not_lt_of_le hvalue) (not_lt_of_le hgreatest)

/-- Where positions are not exact any more, both percentiles are far from either end. -/
theorem exists_quantile?_of_ge (h : TwoOutliers points a c b k) (hk : 1000 ≤ k) {q : Binary64}
    {m : Magnitude} (hq : q.clamp .zero .one = finite false m) (hlow : unity ≤ 100 * m.units)
    (hhigh : 1000 * m.units ≤ 995 * unity) :
    ∃ x, quantile? (sort (points.map Point.value)) q = some x ∧ (x = c ∨ x.isNan = true) := by
  generalize hposition : ofNat (k + 1) * finite false m = position
  have hfloor : 1 ≤ position.floorWord := hposition ▸ one_le_floorWord_ofNat_mul (by omega) hlow
  have hfloor' : position.floorWord ≤ k - 1 :=
    hposition ▸ floorWord_ofNat_mul_le_of_lt 9950 (by decide) (by omega) (by omega)
  have hceil := floorWord_le_ceilWord position
  have hceil' := ceilWord_le_succ position
  obtain ⟨c, rfl, hc⟩ := exists_of_isUsable h.usable_value
  have hlower : (flanked a (finite false c) b k)[position.floorWord]? = some (finite false c) :=
    getElem?_flanked_of_le hfloor (by omega)
  have hupper : (flanked a (finite false c) b k)[min position.ceilWord
      ((flanked a (finite false c) b k).length - 1)]? = some (finite false c) := by
    rw [length_flanked]
    exact getElem?_flanked_of_le (by omega) (by omega)
  have hquantile := quantile?_of_getElem? (q := q) (by rw [length_flanked, hq]; exact hposition)
    hlower hupper
  rw [h.sort_eq]
  exact ⟨_, hquantile, add_sub_mul_self (Nat.ne_of_gt hc) _⟩

theorem trim_of_ge (h : TwoOutliers points a c b k) (hk : 1000 ≤ k) : trim points = points := by
  obtain ⟨m, hm, hlow, hhigh⟩ := trimLow_clamp
  obtain ⟨n, hn, hlow', hhigh'⟩ := trimHigh_clamp
  obtain ⟨low, hlow, hcase⟩ := h.exists_quantile?_of_ge hk hm hlow (by omega)
  obtain ⟨high, hhigh, hcase'⟩ := h.exists_quantile?_of_ge hk hn (by omega) (by omega)
  refine h.trim_eq_self hlow hhigh ?_ ?_ ?_
  · rcases hcase with rfl | hnan
    · exact not_lt_of_le (le_of_lt h.least_lt)
    · exact (lt_of_isNan hnan a).1
  · rcases hcase with rfl | hnan
    · exact lt_irrefl low
    · exact (lt_of_isNan hnan c).1
  · rcases hcase' with rfl | hnan
    · exact not_lt_of_le (le_of_lt h.lt_greatest)
    · exact (lt_of_isNan hnan b).2

end TwoOutliers

/-! ## Two outliers are trimmed, or nothing is -/

/-- **Two outliers among at most a hundred values are trimmed, and no more than them.** That is so unless a
percentile, which lies between an outlier and the value, is rounded to the value: then nothing is strictly
between the percentiles, and the series stays as it is. None is rounded so far if its outlier is away from
the value by enough gaps: of `n` values, a hundred to the `101 - n`. From a hundred and one values on both
percentiles are at ranks of the value, and the series always stays as it is. -/
theorem trim_twoOutliers {points : List Point} {a b c : Binary64} {k : Nat}
    (h : TwoOutliers points a c b k) :
    (k ≤ 98 → ∃ low high, quantile? (sort (points.map Point.value)) trimLow = some low ∧
      quantile? (sort (points.map Point.value)) trimHigh = some high ∧
      (100 * gap (c.height - 1) ≤ (99 - k) * (c.height - a.height) → low ≠ c) ∧
      (100 * gap c.height ≤ (99 - k) * (b.height - c.height) → high ≠ c) ∧
      trim points = if low = c ∨ high = c then points else points.filter fun x => x.value = c) ∧
    (99 ≤ k → trim points = points) := by
  refine ⟨h.trim_of_le, fun hk => ?_⟩
  rcases Nat.lt_or_ge (k + 2) (2 ^ 53) with hlt | hge
  · exact h.trim_of_lt hk hlt
  · exact h.trim_of_ge (by omega)

/-- A series of one value among two others. -/
def flankedPoints (least value greatest : Binary64) (k : Nat) : List Point :=
  (flanked least value greatest k).map fun x => ⟨pastNoon, x⟩

theorem map_value_flankedPoints {a b c : Binary64} {k : Nat} :
    (flankedPoints a c b k).map Point.value = flanked a c b k := by
  rw [flankedPoints, List.map_map]
  exact List.map_id _

theorem twoOutliers_flankedPoints {a b c : Binary64} {k : Nat} (hk : 1 ≤ k) (ha : a.isUsable = true)
    (hc : c.isUsable = true) (hb : b.isUsable = true) (hac : a.lt c = true) (hcb : c.lt b = true) :
    TwoOutliers (flankedPoints a c b k) a c b k where
  perm := by
    rw [map_value_flankedPoints, flanked]
    exact List.Perm.cons a (List.perm_append_singleton b _)
  pos := hk
  usable_least := ha
  usable_value := hc
  usable_greatest := hb
  least_lt := hac
  lt_greatest := hcb

/-- 1 and 1000, with a number of times 50 between them. -/
def fifties (k : Nat) : List Point := flankedPoints (.ofNat 1) (.ofNat 50) (.ofNat 1000) k

theorem twoOutliers_fifties {k : Nat} (hk : 1 ≤ k) :
    TwoOutliers (fifties k) (.ofNat 1) (.ofNat 50) (.ofNat 1000) k :=
  twoOutliers_flankedPoints hk (by decide +kernel) (by decide +kernel) (by decide +kernel)
    (by decide +kernel) (by decide +kernel)

theorem trim_twoOutliers_fifties :
    TwoOutliers (fifties 98) (.ofNat 1) (.ofNat 50) (.ofNat 1000) 98 ∧
      trim (fifties 98) = (fifties 98).filter fun x => x.value = .ofNat 50 := by
  have hfifties := twoOutliers_fifties (k := 98) (by decide)
  obtain ⟨low, high, _, _, hlow, hhigh, htrim⟩ := (trim_twoOutliers hfifties).1 (by decide)
  refine ⟨hfifties, ?_⟩
  rw [htrim, if_neg]
  exact not_or.mpr ⟨hlow (by decide +kernel), hhigh (by decide +kernel)⟩

/-- The number before 50. -/
def beforeFifty : Binary64 := .ofDecimal false 4999999999999999 (-14)

/-- **Two outliers can both stay.** They do if there are a hundred and one values, however far out they are;
and they do among a hundred values, if one of them is next to the value. -/
theorem trim_keeps_twoOutliers :
    (TwoOutliers (fifties 99) (.ofNat 1) (.ofNat 50) (.ofNat 1000) 99 ∧
      trim (fifties 99) = fifties 99 ∧
      trim (fifties 99) ≠ (fifties 99).filter fun x => x.value = .ofNat 50) ∧
    TwoOutliers (flankedPoints beforeFifty (.ofNat 50) (.ofNat 1000) 98)
        beforeFifty (.ofNat 50) (.ofNat 1000) 98 ∧
      trim (flankedPoints beforeFifty (.ofNat 50) (.ofNat 1000) 98) =
        flankedPoints beforeFifty (.ofNat 50) (.ofNat 1000) 98 ∧
      trim (flankedPoints beforeFifty (.ofNat 50) (.ofNat 1000) 98) ≠
        (flankedPoints beforeFifty (.ofNat 50) (.ofNat 1000) 98).filter fun x => x.value = .ofNat 50 := by
  constructor
  · have hfifties := twoOutliers_fifties (k := 99) (by decide)
    have htrim := hfifties.trim_of_lt (Nat.le_refl 99) (by decide)
    refine ⟨hfifties, htrim, ?_⟩
    rw [htrim]
    decide +kernel
  · have hnear : TwoOutliers (flankedPoints beforeFifty (.ofNat 50) (.ofNat 1000) 98)
        beforeFifty (.ofNat 50) (.ofNat 1000) 98 :=
      twoOutliers_flankedPoints (by decide) (by decide +kernel) (by decide +kernel) (by decide +kernel)
        (by decide +kernel) (by decide +kernel)
    have htrim : trim (flankedPoints beforeFifty (.ofNat 50) (.ofNat 1000) 98) =
        flankedPoints beforeFifty (.ofNat 50) (.ofNat 1000) 98 := by
      rw [trim, hnear.sort_eq]
      decide +kernel
    refine ⟨hnear, htrim, ?_⟩
    rw [htrim]
    decide +kernel

end LatencyLog.Series
