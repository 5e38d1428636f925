import LatencyLog.Proofs.Text.Times
import LatencyLog.Proofs.Text.Trimming

/-!
# The grammar of stamps

A `Stamp` is the time of a line in its parts: three numbers of one or two digits, each with any white space
in front, and the digits of a fraction. A text is read exactly if it is the text of a stamp whose numbers
are within their bounds (`read?_eq_some_iff`), and a text is that of one stamp at most (`text_injective`).

What is read is what the parts write, the fraction cut off behind the ninth digit (`Stamp.Tells`).
-/

namespace LatencyLog

open Decimal (AllDigits natOfDigits zeros)
open Text (Stops)

/-- One of the three numbers of a stamp. -/
structure StampNumber where
  /-- White space in front. -/
  front : List Char
  digits : List Char
  front_blank : ∀ c ∈ front, Text.isBlank c = true
  allDigits : AllDigits digits
  length_digits : digits.length = 1 ∨ digits.length = 2

/-- A stamp by its parts. -/
structure Stamp where
  hour : StampNumber
  minute : StampNumber
  second : StampNumber
  /-- The digits behind the point; there is no point without any. -/
  fraction : List Char
  fraction_digits : AllDigits fraction

/-! ## Numbers -/

namespace StampNumber

/-- Digits without white space in front. -/
def plain (ds : List Char) (hdigits : AllDigits ds) (hlength : ds.length = 1 ∨ ds.length = 2) :
    StampNumber :=
  ⟨[], ds, List.forall_mem_nil _, hdigits, hlength⟩

def text (k : StampNumber) : List Char := k.front ++ k.digits

def value (k : StampNumber) : Nat := natOfDigits k.digits

theorem digits_eq (k : StampNumber) : ∃ d ds, k.digits = d :: ds ∧ d.isDigit = true := by
  cases h : k.digits with
  | nil =>
    have hlength := k.length_digits
    rw [h] at hlength
    rcases hlength with hlength | hlength <;> cases hlength
  | cons d ds => exact ⟨d, ds, rfl, k.allDigits d (h ▸ List.mem_cons_self ..)⟩

/-- White space ends where the digits begin. -/
theorem stops_digits_append (k : StampNumber) (rest : List Char) :
    Stops Text.isBlank (k.digits ++ rest) := by
  obtain ⟨d, ds, hdigits, hd⟩ := k.digits_eq
  rw [hdigits, List.cons_append, Text.stops_cons]
  exact Decimal.isBlank_of_isDigit hd

theorem trimStart_text_append (k : StampNumber) (rest : List Char) :
    Text.trimStart (k.text ++ rest) = k.digits ++ rest := by
  rw [text, List.append_assoc]
  exact Text.dropWhile_append k.front_blank (k.stops_digits_append rest)

/-- **A number and what follows it are told apart**, if what follows is no digit. -/
theorem text_append_inj {k k' : StampNumber} {rest rest' : List Char} (hrest : Stops Char.isDigit rest)
    (hrest' : Stops Char.isDigit rest') (h : k.text ++ rest = k'.text ++ rest') :
    k = k' ∧ rest = rest' := by
  have hfront : k.front = k'.front := by
    have hspan := congrArg (List.takeWhile Text.isBlank) h
    rwa [text, text, List.append_assoc, List.append_assoc,
      Text.takeWhile_append k.front_blank (k.stops_digits_append rest),
      Text.takeWhile_append k'.front_blank (k'.stops_digits_append rest')] at hspan
  have hdigits : k.digits ++ rest = k'.digits ++ rest' := by
    rw [← trimStart_text_append, h, trimStart_text_append]
  have hspan := congrArg Decimal.spanDigits hdigits
  rw [Decimal.spanDigits_append k.allDigits hrest, Decimal.spanDigits_append k'.allDigits hrest',
    Prod.mk.injEq] at hspan
  obtain ⟨front, digits, _, _, _⟩ := k
  obtain ⟨front', digits', _, _, _⟩ := k'
  obtain ⟨rfl, rfl⟩ := hspan
  cases hfront
  exact ⟨rfl, rfl⟩

end StampNumber

/-! ## Stamps -/

namespace Stamp

/-- A point in front of digits, if there are any. -/
def pointed : List Char → List Char
  | [] => []
  | ds => '.' :: ds

def text (s : Stamp) : List Char :=
  s.hour.text ++ ':' :: (s.minute.text ++ ':' :: (s.second.text ++ pointed s.fraction))

/-- The numbers are within the bounds of a time of day. -/
structure InRange (s : Stamp) : Prop where
  hour : s.hour.value ≤ 23
  minute : s.minute.value ≤ 59
  second : s.second.value ≤ 60

/-- The time has the parts of the stamp. Of its fraction it has the nanoseconds, rounded down. -/
structure Tells (s : Stamp) (t : TimeOfDay) : Prop where
  hour : t.hour = s.hour.value
  minute : t.minute = s.minute.value
  second : t.second = s.second.value
  nano : t.nano = natOfDigits s.fraction * 10 ^ 9 / 10 ^ s.fraction.length

/-- Nine digits of a fraction, cut off or filled up with zeros. -/
def nine (ds : List Char) : List Char := (ds ++ zeros 9).take 9

theorem length_nine (ds : List Char) : (nine ds).length = 9 := by
  simp [nine, zeros]

theorem allDigits_nine {ds : List Char} (hds : AllDigits ds) : AllDigits (nine ds) :=
  fun d hd => hds.append (Decimal.allDigits_zeros 9) d (List.mem_of_mem_take hd)

theorem stops_colon (rest : List Char) : Stops Char.isDigit (':' :: rest) :=
  Text.stops_cons.mpr (by decide)

theorem stops_pointed (ds : List Char) : Stops Char.isDigit (pointed ds) := by
  cases ds with
  | nil => exact Text.stops_nil
  | cons d ds => exact Text.stops_cons.mpr (by decide)

theorem pointed_injective {ds ds' : List Char} (h : pointed ds = pointed ds') : ds = ds' := by
  cases ds with
  | nil =>
    cases ds' with
    | nil => rfl
    | cons d' ds' => cases h
  | cons d ds =>
    cases ds' with
    | nil => cases h
    | cons d' ds' => exact (List.cons.inj h).2

/-- **A text is read as a stamp in one way at most.** -/
theorem text_injective {s s' : Stamp} (h : s.text = s'.text) : s = s' := by
  obtain ⟨hhour, h⟩ := StampNumber.text_append_inj (stops_colon _) (stops_colon _) h
  obtain ⟨hminute, h⟩ := StampNumber.text_append_inj (stops_colon _) (stops_colon _) (List.cons.inj h).2
  obtain ⟨hsecond, h⟩ := StampNumber.text_append_inj (stops_pointed _) (stops_pointed _) (List.cons.inj h).2
  have hfraction := pointed_injective h
  cases s
  cases s'
  cases hhour
  cases hminute
  cases hsecond
  cases hfraction
  rfl

end Stamp

/-! ## Reading -/

namespace TimeOfDay

/-! ### Numbers -/

theorem number?_text_append (k : StampNumber) {rest : List Char} (hrest : Stops Char.isDigit rest) :
    number? (k.text ++ rest) = some (k.value, rest) := by
  rw [number?, k.trimStart_text_append, StampNumber.value]
  obtain ⟨d, ds, hdigits, hd⟩ := k.digits_eq
  have hlength := k.length_digits
  have hall := k.allDigits
  rw [hdigits] at hlength hall ⊢
  rcases hlength with hlength | hlength
  · -- One digit, which may be the last character.
    obtain rfl := List.eq_nil_of_length_eq_zero (Nat.succ.inj hlength)
    cases rest with
    | nil => simp only [List.append_nil, hd, if_true]
    | cons c rest =>
      have hc : c.isDigit = false := Text.stops_cons.mp hrest
      simp only [List.cons_append, List.nil_append, hd, hc, if_true, Bool.false_eq_true, if_false]
  · obtain ⟨e, rfl⟩ := List.length_eq_one_iff.mp (Nat.succ.inj hlength)
    have he : e.isDigit = true := hall e (by simp)
    simp only [List.cons_append, List.nil_append, hd, he, if_true]

theorem exists_of_number? {cs rest : List Char} {n : Nat} (h : number? cs = some (n, rest)) :
    ∃ k : StampNumber, cs = k.text ++ rest ∧ k.value = n := by
  obtain ⟨front, hsplit, hblank⟩ := Text.exists_trimStart cs
  -- What has been read as digits makes a number with the white space in front.
  have hmake : ∀ digits, AllDigits digits → digits.length = 1 ∨ digits.length = 2 →
      Text.trimStart cs = digits ++ rest → natOfDigits digits = n →
      ∃ k : StampNumber, cs = k.text ++ rest ∧ k.value = n := by
    intro digits hdigits hlength htrim hvalue
    refine ⟨⟨front, digits, hblank, hdigits, hlength⟩, ?_, hvalue⟩
    rw [StampNumber.text, List.append_assoc, ← htrim]
    exact hsplit
  unfold number? at h
  split at h
  case h_1 c d tail htrim =>
    obtain ⟨hc, h⟩ := Option.ite_none_right_eq_some.mp h
    split at h
    case isTrue hd =>
      cases h
      refine hmake [c, d] ?_ (Or.inr rfl) htrim rfl
      exact List.forall_mem_cons.mpr ⟨hc, List.forall_mem_singleton.mpr hd⟩
    case isFalse =>
      cases h
      exact hmake [c] (List.forall_mem_singleton.mpr hc) (Or.inl rfl) htrim rfl
  case h_2 c htrim =>
    obtain ⟨hc, h⟩ := Option.ite_none_right_eq_some.mp h
    cases h
    exact hmake [c] (List.forall_mem_singleton.mpr hc) (Or.inl rfl) htrim rfl
  case h_3 => cases h

theorem colon?_eq_some_iff {cs rest : List Char} : colon? cs = some rest ↔ cs = ':' :: rest := by
  unfold colon?
  split
  · rw [Option.some.injEq, List.cons_inj_right]
  · rename_i hcolon
    exact iff_of_false (fun h => nomatch h) (hcolon rest)

/-! ### Fractions -/

/-- **The nanoseconds of a fraction, rounded down.** -/
theorem nanoOfFraction_eq {ds : List Char} (hds : AllDigits ds) :
    nanoOfFraction ds = natOfDigits ds * 10 ^ 9 / 10 ^ ds.length := by
  rw [nanoOfFraction, List.take_append, List.take_replicate]
  rcases Nat.le_total ds.length 9 with hle | hge
  · -- Zeros fill up what is short.
    have hzeros := Decimal.natOfDigits_append_zeros ds (9 - ds.length)
    have hnine : 10 ^ 9 = 10 ^ (9 - ds.length) * 10 ^ ds.length := by
      rw [← Nat.pow_add, Nat.sub_add_cancel hle]
    rw [List.take_of_length_le hle, Nat.min_eq_left (Nat.sub_le _ _), hnine, ← Nat.mul_assoc,
      Nat.mul_div_cancel _ (Nat.pow_pos (by decide))]
    exact hzeros
  · -- What is cut off is less than a one behind the ninth place.
    have hsplit := Decimal.natOfDigits_append (ds.take 9) (ds.drop 9)
    have hdrop : AllDigits (ds.drop 9) := fun d hd => hds d (List.mem_of_mem_drop hd)
    have hrest := Decimal.natOfDigits_lt hdrop
    have hlength : 10 ^ ds.length = 10 ^ (ds.length - 9) * 10 ^ 9 := by
      rw [← Nat.pow_add, Nat.sub_add_cancel hge]
    rw [List.take_append_drop] at hsplit
    rw [List.length_drop] at hsplit hrest
    rw [Nat.sub_eq_zero_of_le hge, Nat.zero_min, List.replicate_zero, List.append_nil, hlength,
      Nat.mul_div_mul_right _ _ (by decide), hsplit, Nat.mul_comm, Nat.mul_add_div (Nat.pow_pos (by decide)),
      Nat.div_eq_of_lt hrest, Nat.add_zero]

theorem nanoOfFraction_lt {ds : List Char} (hds : AllDigits ds) : nanoOfFraction ds < 1000000000 := by
  rw [nanoOfFraction_eq hds, Nat.div_lt_iff_lt_mul (Nat.pow_pos (by decide)), Nat.mul_comm]
  exact Nat.mul_lt_mul_of_pos_left (Decimal.natOfDigits_lt hds) (by decide)

theorem fraction?_pointed {ds : List Char} (hds : AllDigits ds) :
    fraction? (Stamp.pointed ds) = some (nanoOfFraction ds) := by
  cases ds with
  | nil => rfl
  | cons d ds =>
    show (if List.isEmpty (d :: ds) || !(d :: ds).all Char.isDigit then none
      else some (nanoOfFraction (d :: ds))) = _
    rw [hds.all]
    rfl

theorem fraction?_eq_some_iff {cs : List Char} {n : Nat} :
    fraction? cs = some n ↔ ∃ ds, AllDigits ds ∧ cs = Stamp.pointed ds ∧ nanoOfFraction ds = n := by
  constructor
  · intro h
    unfold fraction? at h
    split at h
    case h_1 =>
      cases h
      exact ⟨[], List.forall_mem_nil _, rfl, rfl⟩
    case h_2 ds =>
      obtain ⟨hcond, h⟩ := Option.ite_none_left_eq_some.mp h
      simp only [Bool.or_eq_true, List.isEmpty_iff, Bool.not_eq_true', not_or, Bool.not_eq_false] at hcond
      cases ds with
      | nil => exact absurd rfl hcond.1
      | cons d ds => exact ⟨d :: ds, Decimal.allDigits_of_all hcond.2, rfl, Option.some.inj h⟩
    case h_3 => cases h
  · rintro ⟨ds, hds, rfl, rfl⟩
    exact fraction?_pointed hds

/-! ### Times -/

theorem ofParts?_eq_some_iff {hour minute second nano : Nat} {t : TimeOfDay} :
    ofParts? hour minute second nano = some t ↔
      t.hour = hour ∧ t.minute = minute ∧ t.second = second ∧ t.nano = nano := by
  unfold ofParts?
  constructor
  · intro h
    split at h
    · cases h
      exact ⟨rfl, rfl, rfl, rfl⟩
    · cases h
  · rintro ⟨rfl, rfl, rfl, rfl⟩
    exact dif_pos ⟨t.hour_lt, t.minute_lt, t.second_le, t.nano_lt⟩

theorem read?_text_eq (s : Stamp) :
    read? s.text = ofParts? s.hour.value s.minute.value s.second.value (nanoOfFraction s.fraction) := by
  simp only [read?, Stamp.text, number?_text_append _ (Stamp.stops_colon _),
    number?_text_append _ (Stamp.stops_pointed _), fraction?_pointed s.fraction_digits, colon?,
    Option.bind_eq_bind, Option.bind_some]

theorem read?_stamp_iff {s : Stamp} {t : TimeOfDay} : read? s.text = some t ↔ s.Tells t := by
  rw [read?_text_eq, ofParts?_eq_some_iff, nanoOfFraction_eq s.fraction_digits]
  exact ⟨fun ⟨hhour, hminute, hsecond, hnano⟩ => ⟨hhour, hminute, hsecond, hnano⟩,
    fun h => ⟨h.hour, h.minute, h.second, h.nano⟩⟩

theorem exists_stamp_of_read? {cs : List Char} {t : TimeOfDay} (h : read? cs = some t) :
    ∃ s : Stamp, s.text = cs := by
  simp only [read?, Option.bind_eq_bind, Option.bind_eq_some_iff, Prod.exists] at h
  obtain ⟨hour, cs₁, hhour, cs₂, hcolon, minute, cs₃, hminute, cs₄, hcolon', second, cs₅, hsecond, nano,
    hnano, _⟩ := h
  obtain ⟨kh, rfl, _⟩ := exists_of_number? hhour
  obtain rfl := colon?_eq_some_iff.mp hcolon
  obtain ⟨km, rfl, _⟩ := exists_of_number? hminute
  obtain rfl := colon?_eq_some_iff.mp hcolon'
  obtain ⟨ks, rfl, _⟩ := exists_of_number? hsecond
  obtain ⟨ds, hds, rfl, _⟩ := fraction?_eq_some_iff.mp hnano
  exact ⟨⟨kh, km, ks, ds, hds⟩, rfl⟩

/-- **A text is read as a time exactly if it is a stamp that tells it.** -/
theorem read?_eq_some_iff {cs : List Char} {t : TimeOfDay} :
    read? cs = some t ↔ ∃ s : Stamp, s.text = cs ∧ s.Tells t := by
  constructor
  · intro h
    obtain ⟨s, rfl⟩ := exists_stamp_of_read? h
    exact ⟨s, rfl, read?_stamp_iff.mp h⟩
  · rintro ⟨s, rfl, htells⟩
    exact read?_stamp_iff.mpr htells

/-- A stamp is refused for its bounds only. -/
theorem exists_read?_stamp_iff {s : Stamp} : (∃ t, read? s.text = some t) ↔ s.InRange := by
  constructor
  · rintro ⟨t, ht⟩
    have htells := read?_stamp_iff.mp ht
    have hhour := t.hour_lt
    have hminute := t.minute_lt
    have hsecond := t.second_le
    rw [htells.hour] at hhour
    rw [htells.minute] at hminute
    rw [htells.second] at hsecond
    exact ⟨Nat.le_of_lt_succ hhour, Nat.le_of_lt_succ hminute, hsecond⟩
  · intro h
    refine ⟨⟨s.hour.value, s.minute.value, s.second.value, nanoOfFraction s.fraction,
      Nat.lt_succ_of_le h.hour, Nat.lt_succ_of_le h.minute, h.second,
      nanoOfFraction_lt s.fraction_digits⟩, ?_⟩
    rw [read?_text_eq, ofParts?_eq_some_iff]
    exact ⟨rfl, rfl, rfl, rfl⟩

end TimeOfDay

end LatencyLog
