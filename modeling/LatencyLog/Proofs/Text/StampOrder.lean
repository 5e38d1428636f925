import LatencyLog.Proofs.Report.ChartTexts
import LatencyLog.Proofs.Text.Stamps
import LatencyLog.Text.Utf8

/-!
# The order of stamps as texts

A stamp with two digits for each number stands in the order of time as it stands in the order of bytes, so
a log whose stamps are written that way is in order if its lines are. Not so without the second digit, as
9 comes before 10 and behind it as a text.

In front of the fraction all texts have one length, and the first number that differs decides
(`append_lt_append`). A fraction may be of any length, and the nine digits that count of it are filled up
with the least digit there is; what comes first with them came first without (`lt_of_filled_lt`). A leap
second is number 60 in either order. It is the second before it with too many nanoseconds in a third one,
in which times are kept elsewhere, and that agrees (`le_iff_elapsed`).

The times of a report are written with two digits for each number as well.
-/

namespace LatencyLog

open Decimal (AllDigits natOfDigits zeros padded)
open Text.Utf8 (encode)

/-! ## Texts one behind the other -/

/-- **Of texts with fronts of one length, the lesser front decides.** -/
theorem append_lt_append {α : Type} [LT α] {front front' rest rest' : List α}
    (hlength : front.length = front'.length) (h : front < front') : front ++ rest < front' ++ rest' := by
  induction front generalizing front' with
  | nil =>
    obtain rfl := List.eq_nil_of_length_eq_zero hlength.symm
    exact absurd h (List.not_lt_nil [])
  | cons a front ih =>
    obtain ⟨b, front', rfl⟩ := List.exists_cons_of_length_eq_add_one hlength.symm
    rw [List.cons_append, List.cons_append, List.cons_lt_cons_iff]
    rcases List.cons_lt_cons_iff.mp h with hlt | ⟨heq, hlt⟩
    · exact Or.inl hlt
    · exact Or.inr ⟨heq, ih (Nat.succ.inj hlength) hlt⟩

/-! ## Fractions -/

theorem not_lt_zero_of_isDigit {d : Char} (hd : d.isDigit = true) : ¬ d < '0' := by
  intro h
  have hlt : d.toNat < 48 := UInt32.lt_iff_toNat_lt.mp h
  exact absurd (Decimal.toNat_of_isDigit hd).1 (Nat.not_le_of_lt hlt)

/-- **Digits that come first when they are filled up and cut off come first as they are.** -/
theorem lt_of_filled_lt {ds ds' : List Char} (hds : AllDigits ds) {n m m' : Nat} (hm : n ≤ m)
    (hm' : n ≤ m') (h : (ds ++ zeros m).take n < (ds' ++ zeros m').take n) : ds < ds' := by
  induction n generalizing ds ds' m m' with
  | zero => exact absurd h (List.not_lt_nil _)
  | succ n ih =>
    obtain ⟨m, rfl⟩ := Nat.exists_eq_add_one_of_ne_zero (Nat.ne_of_gt (Nat.lt_of_lt_of_le n.succ_pos hm))
    obtain ⟨m', rfl⟩ := Nat.exists_eq_add_one_of_ne_zero (Nat.ne_of_gt (Nat.lt_of_lt_of_le n.succ_pos hm'))
    have hn : n ≤ m := Nat.le_of_succ_le_succ hm
    have hn' : n ≤ m' := Nat.le_of_succ_le_succ hm'
    cases ds with
    | nil =>
      cases ds' with
      | nil =>
        simp only [List.nil_append, zeros, List.take_replicate, Nat.min_eq_left hm,
          Nat.min_eq_left hm'] at h
        exact absurd h (List.lt_irrefl _)
      | cons d' ds' => exact List.nil_lt_cons d' ds'
    | cons d ds =>
      obtain ⟨hd, hds⟩ := List.forall_mem_cons.mp hds
      cases ds' with
      | nil =>
        -- Zeros come first of all digits, so nothing can come before them.
        rcases List.cons_lt_cons_iff.mp h with hlt | ⟨_, hlt⟩
        · exact absurd hlt (not_lt_zero_of_isDigit hd)
        · have hnil : ds < [] := ih hds (Nat.le_succ_of_le hn) hn' hlt
          exact absurd hnil (List.not_lt_nil ds)
      | cons d' ds' =>
        rw [List.cons_lt_cons_iff]
        rcases List.cons_lt_cons_iff.mp h with hlt | ⟨heq, hlt⟩
        · exact Or.inl hlt
        · exact Or.inr ⟨heq, ih hds (Nat.le_succ_of_le hn) (Nat.le_succ_of_le hn') hlt⟩

theorem lt_of_nanoOfFraction_lt {ds ds' : List Char} (hds : AllDigits ds) (hds' : AllDigits ds')
    (h : TimeOfDay.nanoOfFraction ds < TimeOfDay.nanoOfFraction ds') : ds < ds' := by
  have hnine : Stamp.nine ds < Stamp.nine ds' := by
    refine Decimal.lt_of_natOfDigits_lt (Stamp.allDigits_nine hds) (Stamp.allDigits_nine hds') ?_ h
    rw [Stamp.length_nine, Stamp.length_nine]
  exact lt_of_filled_lt hds (Nat.le_refl 9) (Nat.le_refl 9) hnine

/-! ## Bytes -/

/-- A character of one byte. -/
def IsAscii (c : Char) : Prop := c.toNat < 0x80

theorem utf8EncodeChar_of_isAscii {c : Char} (h : IsAscii c) :
    String.utf8EncodeChar c = [c.val.toUInt8] := by
  have hle : c.val ≤ 0x7F := UInt32.le_iff_toNat_le.mpr (Nat.le_of_lt_succ h)
  exact String.utf8EncodeChar_eq_singleton (Char.utf8Size_eq_one_iff.mpr hle)

theorem toNat_toUInt8_of_isAscii {c : Char} (h : IsAscii c) : c.val.toUInt8.toNat = c.toNat := by
  have hlt : c.val.toNat < 256 := Nat.lt_trans h (by decide)
  rw [UInt32.toNat_toUInt8, Nat.mod_eq_of_lt hlt]
  rfl

/-- **Texts of one-byte characters are in the order of their bytes.** -/
theorem encode_lt_encode {cs cs' : List Char} (hcs : ∀ c ∈ cs, IsAscii c) (hcs' : ∀ c ∈ cs', IsAscii c)
    (h : cs < cs') : encode cs < encode cs' := by
  induction cs generalizing cs' with
  | nil =>
    cases cs' with
    | nil => exact absurd h (List.not_lt_nil [])
    | cons c' cs' =>
      obtain ⟨hc', _⟩ := List.forall_mem_cons.mp hcs'
      rw [encode, encode, List.flatMap_cons, utf8EncodeChar_of_isAscii hc']
      exact List.nil_lt_cons _ _
  | cons c cs ih =>
    cases cs' with
    | nil => exact absurd h (List.not_lt_nil _)
    | cons c' cs' =>
      obtain ⟨hc, hrest⟩ := List.forall_mem_cons.mp hcs
      obtain ⟨hc', hrest'⟩ := List.forall_mem_cons.mp hcs'
      rw [encode, encode, List.flatMap_cons, List.flatMap_cons, utf8EncodeChar_of_isAscii hc,
        utf8EncodeChar_of_isAscii hc', List.singleton_append, List.singleton_append,
        List.cons_lt_cons_iff]
      rcases List.cons_lt_cons_iff.mp h with hlt | ⟨rfl, hlt⟩
      · refine Or.inl (UInt8.lt_iff_toNat_lt.mpr ?_)
        rw [toNat_toUInt8_of_isAscii hc, toNat_toUInt8_of_isAscii hc']
        exact UInt32.lt_iff_toNat_lt.mp hlt
      · exact Or.inr ⟨rfl, ih hrest hrest' hlt⟩

/-! ## Times -/

namespace TimeOfDay

theorem count_lt_iff {t t' : TimeOfDay} :
    t.count < t'.count ↔ t.hour < t'.hour ∨ t.hour = t'.hour ∧ (t.minute < t'.minute ∨
      t.minute = t'.minute ∧ (t.second < t'.second ∨ t.second = t'.second ∧ t.nano < t'.nano)) := by
  obtain ⟨hour, minute, second, nano, _, _, _, _⟩ := t
  obtain ⟨hour', minute', second', nano', _, _, _, _⟩ := t'
  simp only [count]
  omega

/-- **Times are in the order of the seconds and nanoseconds since midnight**, those of a leap second going
on behind the last of the second before it. -/
theorem le_iff_elapsed {t t' : TimeOfDay} :
    t ≤ t' ↔ t.secondOfDay < t'.secondOfDay ∨
      t.secondOfDay = t'.secondOfDay ∧ t.nanoOfSecond ≤ t'.nanoOfSecond := by
  obtain ⟨hour, minute, second, nano, _, _, _, _⟩ := t
  obtain ⟨hour', minute', second', nano', _, _, _, _⟩ := t'
  show TimeOfDay.count _ ≤ TimeOfDay.count _ ↔ _
  simp only [count, secondOfDay, nanoOfSecond]
  omega

end TimeOfDay

/-! ## Stamps with two digits for each number -/

/-- Two digits and no white space. -/
structure StampNumber.Padded (k : StampNumber) : Prop where
  front : k.front = []
  digits : k.digits.length = 2

namespace StampNumber

variable {k k' : StampNumber}

theorem Padded.text_eq (h : k.Padded) : k.text = k.digits := by
  rw [text, h.front, List.nil_append]

theorem Padded.text_lt (h : k.Padded) (h' : k'.Padded) (hlt : k.value < k'.value) : k.text < k'.text := by
  rw [h.text_eq, h'.text_eq]
  exact Decimal.lt_of_natOfDigits_lt k.allDigits k'.allDigits (h.digits.trans h'.digits.symm) hlt

theorem Padded.text_congr (h : k.Padded) (h' : k'.Padded) (heq : k.value = k'.value) :
    k.text = k'.text := by
  rw [h.text_eq, h'.text_eq]
  exact Decimal.eq_of_natOfDigits_eq k.allDigits k'.allDigits (h.digits.trans h'.digits.symm) heq

theorem Padded.length_text (h : k.Padded) : k.text.length = 2 := by
  rw [h.text_eq, h.digits]

end StampNumber

namespace Stamp

structure Padded (s : Stamp) : Prop where
  hour : s.hour.Padded
  minute : s.minute.Padded
  second : s.second.Padded

variable {s s' : Stamp} {t t' : TimeOfDay}

theorem pointed_lt_pointed {ds ds' : List Char} (h : ds < ds') : pointed ds < pointed ds' := by
  cases ds' with
  | nil => exact absurd h (List.not_lt_nil ds)
  | cons d' ds' =>
    cases ds with
    | nil => exact List.nil_lt_cons _ _
    | cons d ds => exact List.cons_lt_cons_iff.mpr (Or.inr ⟨rfl, h⟩)

theorem Padded.text_lt (h : s.Padded) (h' : s'.Padded) (ht : s.Tells t) (ht' : s'.Tells t')
    (hlt : t.count < t'.count) : s.text < s'.text := by
  have hcolon : ∀ {rest rest' : List Char}, rest < rest' → ':' :: rest < ':' :: rest' :=
    fun hrest => List.cons_lt_cons_iff.mpr (Or.inr ⟨rfl, hrest⟩)
  have hlengths : ∀ {k k' : StampNumber}, k.Padded → k'.Padded → k.text.length = k'.text.length :=
    fun hk hk' => hk.length_text.trans hk'.length_text.symm
  rw [TimeOfDay.count_lt_iff, ht.hour, ht'.hour, ht.minute, ht'.minute, ht.second, ht'.second] at hlt
  rw [text, text]
  -- The first number that differs decides. What is behind it counts only where none does.
  rcases hlt with hhour | ⟨hhour, hlt⟩
  · exact append_lt_append (hlengths h.hour h'.hour) (h.hour.text_lt h'.hour hhour)
  rw [h.hour.text_congr h'.hour hhour]
  refine List.append_left_lt (hcolon ?_)
  rcases hlt with hminute | ⟨hminute, hlt⟩
  · exact append_lt_append (hlengths h.minute h'.minute) (h.minute.text_lt h'.minute hminute)
  rw [h.minute.text_congr h'.minute hminute]
  refine List.append_left_lt (hcolon ?_)
  rcases hlt with hsecond | ⟨hsecond, hnano⟩
  · exact append_lt_append (hlengths h.second h'.second) (h.second.text_lt h'.second hsecond)
  rw [h.second.text_congr h'.second hsecond]
  refine List.append_left_lt (pointed_lt_pointed ?_)
  rw [ht.nano, ht'.nano, ← TimeOfDay.nanoOfFraction_eq s.fraction_digits,
    ← TimeOfDay.nanoOfFraction_eq s'.fraction_digits] at hnano
  exact lt_of_nanoOfFraction_lt s.fraction_digits s'.fraction_digits hnano

theorem isAscii_of_isDigit {d : Char} (hd : d.isDigit = true) : IsAscii d :=
  Nat.lt_of_le_of_lt (Decimal.toNat_of_isDigit hd).2 (by decide)

theorem Padded.isAscii_text (h : s.Padded) : ∀ c ∈ s.text, IsAscii c := by
  have hnumber : ∀ {k : StampNumber}, k.Padded → ∀ c ∈ k.text, IsAscii c := by
    intro k hk c hc
    rw [hk.text_eq] at hc
    exact isAscii_of_isDigit (k.allDigits c hc)
  have hcolon : IsAscii ':' := show (58 : Nat) < 0x80 by decide
  have hpointed : ∀ c ∈ pointed s.fraction, IsAscii c := by
    intro c hc
    have hdigits := s.fraction_digits
    cases hfraction : s.fraction with
    | nil =>
      rw [hfraction] at hc
      cases hc
    | cons d ds =>
      rw [hfraction] at hc hdigits
      rcases List.mem_cons.mp hc with rfl | hc
      · exact show (46 : Nat) < 0x80 by decide
      · exact isAscii_of_isDigit (hdigits c hc)
  rw [text, List.forall_mem_append, List.forall_mem_cons, List.forall_mem_append, List.forall_mem_cons,
    List.forall_mem_append]
  exact ⟨hnumber h.hour, hcolon, hnumber h.minute, hcolon, hnumber h.second, hpointed⟩

/-- **Stamps in the order of bytes are in the order of time.** -/
theorem Padded.le_of_encode_le (h : s.Padded) (h' : s'.Padded) (ht : s.Tells t) (ht' : s'.Tells t')
    (hle : encode s.text ≤ encode s'.text) : t ≤ t' := by
  refine Nat.le_of_not_lt fun hlt => hle ?_
  exact encode_lt_encode h'.isAscii_text h.isAscii_text (h'.text_lt h ht' ht hlt)

end Stamp

/-! ## Times as they are written -/

theorem StampNumber.padded_plain {ds : List Char} (hdigits : AllDigits ds) (hlength : ds.length = 2) :
    (plain ds hdigits (Or.inr hlength)).Padded :=
  ⟨rfl, hlength⟩

namespace TimeOfDay

variable {t t' : TimeOfDay}

theorem exists_fractionText {nano : Nat} (h : nano < 1000000000) :
    ∃ ds, AllDigits ds ∧ ds.length ∈ [0, 3, 6, 9] ∧ fractionText nano = Stamp.pointed ds := by
  have hpadded : ∀ {width k : Nat}, width ∈ [3, 6, 9] → k < 10 ^ width →
      ∃ ds, AllDigits ds ∧ ds.length ∈ [0, 3, 6, 9] ∧ '.' :: padded width k = Stamp.pointed ds := by
    intro width k hwidth hk
    have hpos : 0 < width := by
      rcases List.mem_cons.mp hwidth with rfl | hwidth
      · decide
      · rcases List.mem_pair.mp hwidth with rfl | rfl <;> decide
    have hlength := Decimal.length_padded hpos hk
    refine ⟨padded width k, Decimal.allDigits_padded width k, ?_, ?_⟩
    · rw [hlength]
      exact List.mem_cons_of_mem _ hwidth
    · cases hds : padded width k with
      | nil =>
        rw [hds] at hlength
        exact absurd hlength (Nat.ne_of_lt hpos)
      | cons d ds => rfl
  unfold fractionText
  split
  case isTrue => exact ⟨[], List.forall_mem_nil _, by decide, rfl⟩
  case isFalse =>
    split
    case isTrue => exact hpadded (by decide) (by omega)
    case isFalse =>
      split
      case isTrue => exact hpadded (by decide) (by omega)
      case isFalse => exact hpadded (by decide) (by omega)

/-- **A time is written as a stamp with two digits for each number.** -/
theorem exists_stamp_text (t : TimeOfDay) :
    ∃ s : Stamp, s.Padded ∧ s.text = t.text ∧ s.fraction.length ∈ [0, 3, 6, 9] := by
  have hlength : ∀ {n : Nat}, n < 10 ^ 2 → (padded 2 n).length = 2 :=
    fun hn => Decimal.length_padded (by decide) hn
  have hhour := hlength (Nat.lt_trans t.hour_lt (by decide))
  have hminute := hlength (Nat.lt_trans t.minute_lt (by decide))
  have hsecond := hlength (Nat.lt_of_le_of_lt t.second_le (by decide))
  obtain ⟨ds, hds, hwidth, htext⟩ := exists_fractionText t.nano_lt
  refine ⟨⟨_, _, _, ds, hds⟩, ⟨StampNumber.padded_plain (Decimal.allDigits_padded _ _) hhour,
    StampNumber.padded_plain (Decimal.allDigits_padded _ _) hminute,
    StampNumber.padded_plain (Decimal.allDigits_padded _ _) hsecond⟩, ?_, hwidth⟩
  simp [Stamp.text, StampNumber.text, TimeOfDay.text, htext]

/-- **Written times are in the order of bytes exactly if they are in the order of time.** -/
theorem encode_text_le_iff : encode t.text ≤ encode t'.text ↔ t ≤ t' := by
  obtain ⟨s, hs, htext, _⟩ := t.exists_stamp_text
  obtain ⟨s', hs', htext', _⟩ := t'.exists_stamp_text
  have htells : s.Tells t := read?_stamp_iff.mp (htext ▸ read?_text t)
  have htells' : s'.Tells t' := read?_stamp_iff.mp (htext' ▸ read?_text t')
  rw [← htext, ← htext']
  constructor
  · exact hs.le_of_encode_le hs' htells htells'
  · intro hle hlt
    -- What comes first as a text is not the other time, and is not later.
    have hback : t' ≤ t := hs'.le_of_encode_le hs htells' htells (List.le_of_lt hlt)
    obtain rfl : t = t' := count_injective (Nat.le_antisymm hle hback)
    rw [htext, htext'] at hlt
    exact List.lt_irrefl _ hlt

end TimeOfDay

/-! ## Times in a report -/

theorem Json.text?_ofTime (t : TimeOfDay) : (Json.ofTime t).text? = some (String.ofList t.text) := by
  rw [ofTime, text?, unescape?_escape, Option.map_some]

/-- The text in the field of a point that holds its time. -/
def Json.timestampText? (j : Json) : Option String :=
  j.fields?.bind fun fields => (field? "timestamp" fields).bind text?

theorem Point.timestampText?_toJson (p : Point) :
    p.toJson.timestampText? = some (String.ofList p.time.text) := by
  simp [Json.timestampText?, toJson, Json.field?, Json.text?_ofTime]

theorem SmoothedPoint.timestampText?_toJson (p : SmoothedPoint) :
    p.toJson.timestampText? = some (String.ofList p.time.text) := by
  simp [Json.timestampText?, toJson, Json.field?, Json.text?_ofTime]

/-- **Times and texts.** Stamps with two digits for each number that are in the order of bytes are in the
order of time, which is that of the seconds and nanoseconds since midnight. A time that is written is such
a stamp, with a fraction of no, three, six or nine digits; it is read as the time it was, stands in its
order, and is what a point of a report has for its time. -/
theorem Stamp.text_order :
    (∀ (s s' : Stamp) (t t' : TimeOfDay), s.Padded → s'.Padded →
      TimeOfDay.read? s.text = some t → TimeOfDay.read? s'.text = some t' →
      encode s.text ≤ encode s'.text → t ≤ t') ∧
    (∀ t t' : TimeOfDay, t ≤ t' ↔ t.secondOfDay < t'.secondOfDay ∨
      t.secondOfDay = t'.secondOfDay ∧ t.nanoOfSecond ≤ t'.nanoOfSecond) ∧
    (∀ t : TimeOfDay, TimeOfDay.read? t.text = some t ∧
      ∃ s : Stamp, s.Padded ∧ s.text = t.text ∧ s.fraction.length ∈ [0, 3, 6, 9]) ∧
    (∀ t t' : TimeOfDay, encode t.text ≤ encode t'.text ↔ t ≤ t') ∧
    (∀ p : Point, p.toJson.timestampText? = some (String.ofList p.time.text)) ∧
    ∀ p : SmoothedPoint, p.toJson.timestampText? = some (String.ofList p.time.text) := by
  refine ⟨?_, fun t t' => TimeOfDay.le_iff_elapsed, ?_, fun t t' => TimeOfDay.encode_text_le_iff,
    Point.timestampText?_toJson, SmoothedPoint.timestampText?_toJson⟩
  · intro s s' t t' hs hs' ht ht' hle
    exact hs.le_of_encode_le hs' (TimeOfDay.read?_stamp_iff.mp ht) (TimeOfDay.read?_stamp_iff.mp ht') hle
  · intro t
    exact ⟨TimeOfDay.read?_text t, t.exists_stamp_text⟩

/-- A stamp in the last minute of a day. -/
def Stamp.lastMinute (second fraction : List Char) (hsecond : second.all Char.isDigit = true)
    (hlength : second.length = 2) (hfraction : fraction.all Char.isDigit = true) : Stamp where
  hour := .plain "23".toList (Decimal.allDigits_of_all rfl) (Or.inr rfl)
  minute := .plain "59".toList (Decimal.allDigits_of_all rfl) (Or.inr rfl)
  second := .plain second (Decimal.allDigits_of_all hsecond) (Or.inr hlength)
  fraction := fraction
  fraction_digits := Decimal.allDigits_of_all hfraction

theorem Stamp.lastMinute_padded {second fraction : List Char} (hsecond : second.all Char.isDigit = true)
    (hlength : second.length = 2) (hfraction : fraction.all Char.isDigit = true) :
    (lastMinute second fraction hsecond hlength hfraction).Padded :=
  ⟨⟨rfl, rfl⟩, ⟨rfl, rfl⟩, ⟨rfl, hlength⟩⟩

/-- Ten nines behind the point come before the leap second that they are next to. -/
theorem Stamp.text_order_leapSecond :
    ∃ t t', TimeOfDay.read? "23:59:59.9999999999".toList = some t ∧
      TimeOfDay.read? "23:59:60.5".toList = some t' ∧
      encode "23:59:59.9999999999".toList ≤ encode "23:59:60.5".toList ∧ t ≤ t' ∧
      t.secondOfDay = t'.secondOfDay := by
  have hread : TimeOfDay.read? "23:59:59.9999999999".toList =
      some ⟨23, 59, 59, 999999999, by decide, by decide, by decide, by decide⟩ := by decide +kernel
  have hread' : TimeOfDay.read? "23:59:60.5".toList =
      some ⟨23, 59, 60, 500000000, by decide, by decide, by decide, by decide⟩ := by decide +kernel
  have hle : encode "23:59:59.9999999999".toList ≤ encode "23:59:60.5".toList := by decide +kernel
  exact ⟨_, _, hread, hread', hle, Stamp.text_order.1
    (lastMinute "59".toList "9999999999".toList rfl rfl rfl) (lastMinute "60".toList "5".toList rfl rfl rfl)
    _ _ (lastMinute_padded rfl rfl rfl) (lastMinute_padded rfl rfl rfl) hread hread' hle, by decide⟩

end LatencyLog
