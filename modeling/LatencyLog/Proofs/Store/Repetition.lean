import LatencyLog.Proofs.Binary64.Zeros

/-!
# When a record repeats another

A store finds repetitions by `Record.key`, which is made for a hash table. What it is meant to find
is said here without it: `Record.Repeats`, the same time, the same tag, and values that compare as
equal or are one NaN to the bit. The two agree (`repeats_iff_key_eq`), so statements about streams
speak of repetition and their proofs of keys.

A key has the fields of a record. Read as one, it is the record with the positive zero wherever
there was a zero, `canonical`: all that is left of a record when the sign of zeros is forgotten.
-/

namespace LatencyLog.Record

/-- One record is the other seen again: values count as numbers, and NaNs by their bits. -/
def Repeats (r r' : Record) : Prop :=
  r.time = r'.time ∧ r.tag = r'.tag ∧
    (r.value.eq r'.value = true ∨ (r.value.isNan = true ∧ r.value.bits = r'.value.bits))

instance (r r' : Record) : Decidable (r.Repeats r') :=
  inferInstanceAs (Decidable (_ ∧ _ ∧ (_ ∨ _)))

/-- **The key of a store is right.** -/
theorem repeats_iff_key_eq {r r' : Record} : r.Repeats r' ↔ r.key = r'.key := by
  rw [Repeats, ← Binary64.valueKey_eq_iff, key, key, Key.mk.injEq]

theorem repeats_rfl (r : Record) : r.Repeats r := repeats_iff_key_eq.mpr rfl

theorem Repeats.symm {r r' : Record} (h : r.Repeats r') : r'.Repeats r :=
  repeats_iff_key_eq.mpr (repeats_iff_key_eq.mp h).symm

theorem Repeats.trans {r r' r'' : Record} (h : r.Repeats r') (h' : r'.Repeats r'') : r.Repeats r'' :=
  repeats_iff_key_eq.mpr ((repeats_iff_key_eq.mp h).trans (repeats_iff_key_eq.mp h'))

/-- Only between the two zeros is there a difference to forget. -/
theorem Repeats.eq_of_place?_ne {r r' : Record} (h : r.Repeats r') (hne : r'.value.place? ≠ some 0) :
    r = r' := by
  obtain ⟨htime, htag, hvalue⟩ := Key.mk.inj (repeats_iff_key_eq.mp h)
  have hplace : r.value.place? = r'.value.place? := by
    rw [← Binary64.place?_valueKey, hvalue, Binary64.place?_valueKey]
  have hself : ∀ x : Binary64, x.place? ≠ some 0 → valueKey x = x := by
    intro x hx
    refine Binary64.valueKey_of_ne fun hzero => hx ?_
    rw [hzero]
    rfl
  rw [hself _ (hplace ▸ hne), hself _ hne] at hvalue
  obtain ⟨time, tag, value⟩ := r
  obtain ⟨time', tag', value'⟩ := r'
  exact congr (congr (congrArg Record.mk htime) htag) hvalue

theorem decide_repeats (r r' : Record) : decide (r.Repeats r') = decide (r.key = r'.key) :=
  decide_eq_decide.mpr repeats_iff_key_eq

/-! ## Records without the sign of a zero -/

/-- A record with the positive zero for any zero. -/
def canonical (r : Record) : Record := ⟨r.time, r.tag, valueKey r.value⟩

theorem canonical_eq_iff {r r' : Record} : r.canonical = r'.canonical ↔ r.key = r'.key := by
  rw [canonical, canonical, key, key, mk.injEq, Key.mk.injEq]

end LatencyLog.Record
