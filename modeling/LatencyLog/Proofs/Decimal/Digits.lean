import LatencyLog.Decimal.Layout
import LatencyLog.Decimal.Literal
import LatencyLog.Proofs.Decimal.Characters
import Mathlib.Algebra.Group.Nat.Defs

/-!
# Runs of digits

What is written is written in digits, and what is read is read up to the first character that is none
(`spanDigits_append`). Zeros in front of a number do not change it and zeros behind it multiply it, so the
only thing that could go wrong where digits meet a point is a zero too many: but the digits of a number do
not begin with one (`exists_toDigits_eq_cons`).
-/

namespace LatencyLog

/-- A text that does not begin with a character of a class. -/
def Text.Stops (p : Char → Bool) (cs : List Char) : Prop := ∀ c ∈ cs.head?, p c = false

namespace Text

variable {p : Char → Bool}

@[simp]
theorem stops_nil : Stops p [] := by
  intro c h
  cases h

@[simp]
theorem stops_cons {c : Char} {cs : List Char} : Stops p (c :: cs) ↔ p c = false := by
  simp [Stops]

theorem takeWhile_append {ds rest : List Char} (hds : ∀ d ∈ ds, p d = true) (hrest : Stops p rest) :
    (ds ++ rest).takeWhile p = ds := by
  rw [List.takeWhile_append_of_pos hds]
  cases rest with
  | nil => exact List.append_nil ds
  | cons c cs =>
    rw [List.takeWhile_cons_of_neg (Bool.not_eq_true _ ▸ stops_cons.mp hrest), List.append_nil]

theorem dropWhile_append {ds rest : List Char} (hds : ∀ d ∈ ds, p d = true) (hrest : Stops p rest) :
    (ds ++ rest).dropWhile p = rest := by
  rw [List.dropWhile_append_of_pos hds]
  cases rest with
  | nil => rfl
  | cons c cs => exact List.dropWhile_cons_of_neg (Bool.not_eq_true _ ▸ stops_cons.mp hrest)

end Text

namespace Decimal

open Text (Stops)

/-- Every character is a digit. -/
def AllDigits (ds : List Char) : Prop := ∀ d ∈ ds, d.isDigit = true

variable {ds ds' : List Char}

theorem AllDigits.append (h : AllDigits ds) (h' : AllDigits ds') : AllDigits (ds ++ ds') :=
  List.forall_mem_append.mpr ⟨h, h'⟩

theorem AllDigits.all (h : AllDigits ds) : ds.all Char.isDigit = true := List.all_eq_true.mpr h

theorem allDigits_of_all (h : ds.all Char.isDigit = true) : AllDigits ds := List.all_eq_true.mp h

theorem spanDigits_append (hds : AllDigits ds) {rest : List Char} (hrest : Stops Char.isDigit rest) :
    spanDigits (ds ++ rest) = (ds, rest) := by
  rw [spanDigits, Text.takeWhile_append hds hrest, Text.dropWhile_append hds hrest]

/-! ## Zeros -/

theorem allDigits_zeros (n : Nat) : AllDigits (zeros n) := by
  intro d hd
  rw [List.eq_of_mem_replicate hd]
  rfl

theorem natOfDigits_zeros_append (n : Nat) (ds : List Char) :
    natOfDigits (zeros n ++ ds) = natOfDigits ds := by
  rw [natOfDigits, Nat.ofDigitChars_append, zeros, Nat.ofDigitChars_replicate_zero, Nat.mul_zero]
  rfl

theorem natOfDigits_append_zeros (ds : List Char) (n : Nat) :
    natOfDigits (ds ++ zeros n) = natOfDigits ds * 10 ^ n := by
  rw [natOfDigits, Nat.ofDigitChars_append, zeros, Nat.ofDigitChars_replicate_zero, Nat.mul_comm]
  rfl

/-! ## Digits one behind the other -/

theorem natOfDigits_append (ds ds' : List Char) :
    natOfDigits (ds ++ ds') = natOfDigits ds * 10 ^ ds'.length + natOfDigits ds' := by
  rw [natOfDigits, Nat.ofDigitChars_append, Nat.ofDigitChars_eq_ofDigitChars_zero, Nat.mul_comm]
  rfl

theorem natOfDigits_cons (d : Char) (ds : List Char) :
    natOfDigits (d :: ds) = natOfDigits [d] * 10 ^ ds.length + natOfDigits ds :=
  natOfDigits_append [d] ds

/-- A digit is the number of its place behind 0. -/
theorem natOfDigits_singleton (d : Char) : natOfDigits [d] = d.toNat - 48 := by
  simp [natOfDigits, Nat.ofDigitChars_cons]

theorem natOfDigits_singleton_lt {d : Char} (hd : d.isDigit = true) : natOfDigits [d] < 10 := by
  have hbounds := toNat_of_isDigit hd
  rw [natOfDigits_singleton]
  omega

/-- **Digits write less than a one behind as many places.** -/
theorem natOfDigits_lt (hds : AllDigits ds) : natOfDigits ds < 10 ^ ds.length := by
  induction ds with
  | nil => exact Nat.one_pos
  | cons d ds ih =>
    obtain ⟨hd, hds⟩ := List.forall_mem_cons.mp hds
    have hfirst := Nat.mul_le_mul_right (10 ^ ds.length) (Nat.le_of_lt_succ (natOfDigits_singleton_lt hd))
    have hrest := ih hds
    rw [natOfDigits_cons, List.length_cons, Nat.pow_succ]
    omega

/-! ## Digits against numbers -/

/-- A greater first digit outweighs all that follows. -/
theorem natOfDigits_cons_lt_cons {d d' : Char} (hd : d.isDigit = true) (hds : AllDigits ds)
    (hlength : ds.length = ds'.length) (h : d < d') :
    natOfDigits (d :: ds) < natOfDigits (d' :: ds') := by
  have hbounds := toNat_of_isDigit hd
  have hlt : d.toNat < d'.toNat := UInt32.lt_iff_toNat_lt.mp h
  have hfirst : natOfDigits [d] + 1 ≤ natOfDigits [d'] := by
    rw [natOfDigits_singleton, natOfDigits_singleton]
    omega
  have hscaled := Nat.mul_le_mul_right (10 ^ ds.length) hfirst
  have hrest := natOfDigits_lt hds
  rw [natOfDigits_cons d ds, natOfDigits_cons d' ds', ← hlength]
  rw [Nat.add_mul] at hscaled
  omega

/-- **Digits of one length are in the order of the numbers that they write.** -/
theorem natOfDigits_trichotomy (hds : AllDigits ds) (hds' : AllDigits ds')
    (hlength : ds.length = ds'.length) :
    (ds < ds' ∧ natOfDigits ds < natOfDigits ds') ∨ ds = ds' ∨
      (ds' < ds ∧ natOfDigits ds' < natOfDigits ds) := by
  induction ds generalizing ds' with
  | nil => exact Or.inr (Or.inl (List.length_eq_zero_iff.mp hlength.symm).symm)
  | cons d ds ih =>
    obtain ⟨e, es, rfl⟩ := List.exists_cons_of_length_eq_add_one hlength.symm
    obtain ⟨hd, hrest⟩ := List.forall_mem_cons.mp hds
    obtain ⟨he, hrest'⟩ := List.forall_mem_cons.mp hds'
    have htail : ds.length = es.length := Nat.succ.inj hlength
    simp only [List.cons_lt_cons_iff]
    rcases Std.lt_trichotomy d e with hlt | rfl | hgt
    · exact Or.inl ⟨Or.inl hlt, natOfDigits_cons_lt_cons hd hrest htail hlt⟩
    · rw [natOfDigits_cons d ds, natOfDigits_cons d es, htail]
      rcases ih hrest hrest' htail with ⟨hlt, hvalue⟩ | rfl | ⟨hgt, hvalue⟩
      · exact Or.inl ⟨Or.inr ⟨rfl, hlt⟩, Nat.add_lt_add_left hvalue _⟩
      · exact Or.inr (Or.inl rfl)
      · exact Or.inr (Or.inr ⟨Or.inr ⟨rfl, hgt⟩, Nat.add_lt_add_left hvalue _⟩)
    · exact Or.inr (Or.inr ⟨Or.inl hgt, natOfDigits_cons_lt_cons he hrest' htail.symm hgt⟩)

theorem lt_of_natOfDigits_lt (hds : AllDigits ds) (hds' : AllDigits ds')
    (hlength : ds.length = ds'.length) (h : natOfDigits ds < natOfDigits ds') : ds < ds' := by
  rcases natOfDigits_trichotomy hds hds' hlength with ⟨hlt, _⟩ | rfl | ⟨_, hgt⟩
  · exact hlt
  · exact absurd h (Nat.lt_irrefl _)
  · exact absurd h (Nat.lt_asymm hgt)

theorem eq_of_natOfDigits_eq (hds : AllDigits ds) (hds' : AllDigits ds')
    (hlength : ds.length = ds'.length) (h : natOfDigits ds = natOfDigits ds') : ds = ds' := by
  rcases natOfDigits_trichotomy hds hds' hlength with ⟨_, hlt⟩ | heq | ⟨_, hgt⟩
  · exact absurd h (Nat.ne_of_lt hlt)
  · exact heq
  · exact absurd h.symm (Nat.ne_of_lt hgt)

/-! ## Digits of a number -/

theorem allDigits_toDigits (n : Nat) : AllDigits (Nat.toDigits 10 n) :=
  fun _ => Nat.isDigit_of_mem_toDigits (by decide) (by decide)

@[simp]
theorem natOfDigits_toDigits (n : Nat) : natOfDigits (Nat.toDigits 10 n) = n :=
  Nat.ofDigitChars_ten_toDigits

/-- The digits of a number begin with one that is not 0. -/
theorem exists_toDigits_eq_cons {n : Nat} (hn : n ≠ 0) :
    ∃ d ds, Nat.toDigits 10 n = d :: ds ∧ d ≠ '0' := by
  induction n using Nat.strongRecOn with
  | _ n ih =>
    rw [Nat.toDigits_eq_if (by decide)]
    split
    · exact ⟨_, [], rfl, fun h => hn (Nat.digitChar_eq_zero.mp h)⟩
    · obtain ⟨d, ds, hds, hd⟩ := ih (n / 10) (by omega) (by omega)
      exact ⟨d, _, by rw [hds]; rfl, hd⟩

/-! ## Digits of a given number -/

theorem allDigits_padded (width n : Nat) : AllDigits (padded width n) :=
  (allDigits_zeros _).append (allDigits_toDigits n)

@[simp]
theorem natOfDigits_padded (width n : Nat) : natOfDigits (padded width n) = n := by
  rw [padded, natOfDigits_zeros_append, natOfDigits_toDigits]

theorem length_padded {width n : Nat} (hwidth : 0 < width) (h : n < 10 ^ width) :
    (padded width n).length = width := by
  have hlength := (Nat.length_toDigits_le_iff (by decide) hwidth).mpr h
  rw [padded, List.length_append, zeros, List.length_replicate]
  omega

end Decimal

end LatencyLog
