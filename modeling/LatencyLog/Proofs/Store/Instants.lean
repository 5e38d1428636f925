import LatencyLog.Proofs.Analysis.ArrivalOrder
import LatencyLog.Proofs.LogLine.Verdict
import LatencyLog.Proofs.Text.Stamps

/-!
# Stamps of one time

A time has nine digits of a fraction, and a stamp as many as it likes. The documented form ends at the
ninth and knows no white space (`Stamp.Plain`). The reader does not insist on either, so two stamps that
write different numbers can be one time: exactly if their numbers agree and their fractions do as far as
the ninth digit (`Stamp.Alike`). Up to nine digits that is the equality of the numbers (`alike_iff_same`),
and no two of them are lost in one another.

A store goes by the time. Lines whose stamps are not alike keep a record each, whatever else arrives
(`exists_of_not_alike`); lines whose stamps are alike leave one record if their tags and values agree.
-/

namespace LatencyLog

open Decimal (AllDigits natOfDigits)

/-! ## Stamps next to one another -/

namespace Stamp

/-- The documented form of a stamp. -/
structure Plain (s : Stamp) : Prop where
  hour : s.hour.front = []
  minute : s.minute.front = []
  second : s.second.front = []
  fraction : s.fraction.length ≤ 9

/-- The numbers of two stamps are equal. Fractions are compared over a common denominator. -/
structure Same (s s' : Stamp) : Prop where
  hour : s.hour.value = s'.hour.value
  minute : s.minute.value = s'.minute.value
  second : s.second.value = s'.second.value
  fraction : natOfDigits s.fraction * 10 ^ s'.fraction.length =
    natOfDigits s'.fraction * 10 ^ s.fraction.length

/-- The numbers of two stamps are equal, those of their fractions as far as nine digits. -/
structure Alike (s s' : Stamp) : Prop where
  hour : s.hour.value = s'.hour.value
  minute : s.minute.value = s'.minute.value
  second : s.second.value = s'.second.value
  fraction : nine s.fraction = nine s'.fraction

/-- A line begins with the stamp, the white space around the line being dropped. -/
def Heads (s : Stamp) (line : List Char) : Prop :=
  ∃ c : Columns, c.text = Text.trim line ∧ c.timestamp = s.text

/-! ## Nine digits -/

theorem natOfDigits_nine {ds : List Char} (hds : AllDigits ds) :
    natOfDigits (nine ds) = natOfDigits ds * 10 ^ 9 / 10 ^ ds.length :=
  TimeOfDay.nanoOfFraction_eq hds

theorem nine_eq_iff {ds ds' : List Char} (hds : AllDigits ds) (hds' : AllDigits ds') :
    nine ds = nine ds' ↔
      natOfDigits ds * 10 ^ 9 / 10 ^ ds.length = natOfDigits ds' * 10 ^ 9 / 10 ^ ds'.length := by
  rw [← natOfDigits_nine hds, ← natOfDigits_nine hds']
  constructor
  · exact congrArg natOfDigits
  · intro h
    refine Decimal.eq_of_natOfDigits_eq (allDigits_nine hds) (allDigits_nine hds') ?_ h
    rw [length_nine, length_nine]

/-- Up to nine digits there is nothing to cut off. -/
theorem div_mul_fraction {ds : List Char} (hlength : ds.length ≤ 9) :
    natOfDigits ds * 10 ^ 9 / 10 ^ ds.length * 10 ^ ds.length = natOfDigits ds * 10 ^ 9 :=
  Nat.div_mul_cancel (Dvd.dvd.mul_left (Nat.pow_dvd_pow 10 hlength) _)

/-! ## Times -/

variable {s s' : Stamp} {t t' : TimeOfDay}

/-- **Up to nine digits of a fraction nothing is lost.** -/
theorem Tells.nano_exact (h : s.Tells t) (hlength : s.fraction.length ≤ 9) :
    t.nano * 10 ^ s.fraction.length = natOfDigits s.fraction * 10 ^ 9 := by
  rw [h.nano, div_mul_fraction hlength]

/-- **Stamps tell one time if they are alike, and only then.** -/
theorem Tells.eq_iff_alike (h : s.Tells t) (h' : s'.Tells t') : t = t' ↔ s.Alike s' := by
  have hfraction := nine_eq_iff s.fraction_digits s'.fraction_digits
  rw [← h.nano, ← h'.nano] at hfraction
  constructor
  · rintro rfl
    exact ⟨h.hour.symm.trans h'.hour, h.minute.symm.trans h'.minute, h.second.symm.trans h'.second,
      hfraction.mpr rfl⟩
  · intro halike
    have hhour := h.hour.trans (halike.hour.trans h'.hour.symm)
    have hminute := h.minute.trans (halike.minute.trans h'.minute.symm)
    have hsecond := h.second.trans (halike.second.trans h'.second.symm)
    have hnano := hfraction.mp halike.fraction
    apply TimeOfDay.count_injective
    rw [TimeOfDay.count, TimeOfDay.count, hhour, hminute, hsecond, hnano]

theorem Same.alike (h : s.Same s') : s.Alike s' := by
  refine ⟨h.hour, h.minute, h.second, ?_⟩
  rw [nine_eq_iff s.fraction_digits s'.fraction_digits]
  have hpos : 0 < 10 ^ s.fraction.length := Nat.pow_pos (by decide)
  have hpos' : 0 < 10 ^ s'.fraction.length := Nat.pow_pos (by decide)
  calc natOfDigits s.fraction * 10 ^ 9 / 10 ^ s.fraction.length
      = natOfDigits s.fraction * 10 ^ 9 * 10 ^ s'.fraction.length /
          (10 ^ s.fraction.length * 10 ^ s'.fraction.length) :=
        (Nat.mul_div_mul_right _ _ hpos').symm
    _ = natOfDigits s'.fraction * 10 ^ 9 * 10 ^ s.fraction.length /
          (10 ^ s'.fraction.length * 10 ^ s.fraction.length) := by
        rw [Nat.mul_right_comm, h.fraction, Nat.mul_right_comm, Nat.mul_comm (10 ^ s.fraction.length)]
    _ = natOfDigits s'.fraction * 10 ^ 9 / 10 ^ s'.fraction.length := Nat.mul_div_mul_right _ _ hpos

/-- **Up to nine digits of a fraction, to be alike is to be the same number.** -/
theorem alike_iff_same (hlength : s.fraction.length ≤ 9) (hlength' : s'.fraction.length ≤ 9) :
    s.Alike s' ↔ s.Same s' := by
  refine ⟨fun h => ⟨h.hour, h.minute, h.second, ?_⟩, Same.alike⟩
  have hnano := (nine_eq_iff s.fraction_digits s'.fraction_digits).mp h.fraction
  -- Both fractions are the nanoseconds over a billion.
  refine Nat.eq_of_mul_eq_mul_right (show 0 < 10 ^ 9 by decide) ?_
  rw [Nat.mul_right_comm, ← div_mul_fraction hlength, hnano, Nat.mul_right_comm,
    div_mul_fraction hlength', Nat.mul_right_comm]

/-! ## Records -/

variable {f : Frequency} {line line' : List Char} {e e' : Entry}

theorem Heads.tells (h : s.Heads line) (he : Entry.ofLine f line = .ok e) : s.Tells e.time := by
  obtain ⟨c, htext, htimestamp⟩ := h
  obtain ⟨d, _, htext', hread, _⟩ := Columns.exists_parts_of_ofLine he
  -- A line has its columns in one way, so they are those that its entry was made of.
  obtain rfl : c = d := Columns.text_injective (htext.trans htext'.symm)
  rw [htimestamp] at hread
  exact TimeOfDay.read?_stamp_iff.mp hread

theorem exists_heads (he : Entry.ofLine f line = .ok e) : ∃ s : Stamp, s.Heads line := by
  obtain ⟨c, _, htext, hread, _⟩ := Columns.exists_parts_of_ofLine he
  obtain ⟨s, hs⟩ := TimeOfDay.exists_stamp_of_read? hread
  exact ⟨s, c, htext, hs.symm⟩

theorem mem_accepted_of_line {steps : List Step} (h : Arrival.line line ∈ arrivals steps)
    (he : Entry.ofLine f line = .ok e) : e.record ∈ accepted f e.kind (arrivals steps) := by
  refine List.mem_filterMap.mpr ⟨_, h, ?_⟩
  rw [Arrival.record?, Arrival.read, he]
  exact if_pos rfl

theorem exists_mem_stream_of_line {steps : List Step} (h : Arrival.line line ∈ arrivals steps)
    (he : Entry.ofLine f line = .ok e) :
    ∃ r ∈ ((Store.empty f).run steps).finish.stream e.kind, r.Repeats e.record := by
  rw [Store.stream_run_empty]
  obtain ⟨r, hr, hkey⟩ := RecordSet.exists_mem_normalize_of_mem (mem_accepted_of_line h he)
  exact ⟨r, hr, Record.repeats_iff_key_eq.mpr hkey⟩

/-- **Lines whose stamps are not alike are not taken for one another**, whatever else arrives. -/
theorem exists_of_not_alike (h : s.Heads line) (h' : s'.Heads line') (he : Entry.ofLine f line = .ok e)
    (he' : Entry.ofLine f line' = .ok e') (hne : ¬ s.Alike s') {steps : List Step}
    (hline : Arrival.line line ∈ arrivals steps) (hline' : Arrival.line line' ∈ arrivals steps) :
    ∃ r ∈ ((Store.empty f).run steps).finish.stream e.kind,
      ∃ r' ∈ ((Store.empty f).run steps).finish.stream e'.kind,
        r.Repeats e.record ∧ r'.Repeats e'.record ∧ r.time ≠ r'.time := by
  obtain ⟨r, hr, hrepeats⟩ := exists_mem_stream_of_line hline he
  obtain ⟨r', hr', hrepeats'⟩ := exists_mem_stream_of_line hline' he'
  refine ⟨r, hr, r', hr', hrepeats, hrepeats', fun htime => hne ?_⟩
  rw [← (h.tells he).eq_iff_alike (h'.tells he')]
  exact hrepeats.1.symm.trans (htime.trans hrepeats'.1)

end Stamp

/-- **What is read as a time, and which texts are read as one.** A text is read as a time if it is a stamp
whose numbers are within their bounds, and in no other way. A stamp of the documented form tells its number
exactly. Two stamps are read as one time if they are alike, which among those of the documented form are
the same number. Every line that is accepted begins with a stamp, and a store takes it for another one only
if their stamps are alike. -/
theorem TimeOfDay.read?_by_grammar (f : Frequency) :
    (∀ cs t, read? cs = some t ↔ ∃! s : Stamp, s.text = cs ∧ s.Tells t) ∧
    (∀ s : Stamp, (∃ t, read? s.text = some t) ↔ s.InRange) ∧
    (∀ (s : Stamp) (t : TimeOfDay), s.Plain → read? s.text = some t →
      t.hour = s.hour.value ∧ t.minute = s.minute.value ∧ t.second = s.second.value ∧
        t.nano * 10 ^ s.fraction.length = natOfDigits s.fraction * 10 ^ 9) ∧
    (∀ (s s' : Stamp) (t t' : TimeOfDay), read? s.text = some t → read? s'.text = some t' →
      (t = t' ↔ s.Alike s') ∧ (s.Plain → s'.Plain → (t = t' ↔ s.Same s'))) ∧
    (∀ line e, Entry.ofLine f line = .ok e → ∃ s : Stamp, s.Heads line ∧ s.Tells e.time) ∧
    ∀ (s s' : Stamp) (line line' : List Char) (e e' : Entry), s.Heads line → s'.Heads line' →
      Entry.ofLine f line = .ok e → Entry.ofLine f line' = .ok e' → ¬ s.Alike s' →
      ¬ e.record.Repeats e'.record ∧
      ∀ steps, Arrival.line line ∈ arrivals steps → Arrival.line line' ∈ arrivals steps →
        ∃ r ∈ ((Store.empty f).run steps).finish.stream e.kind,
          ∃ r' ∈ ((Store.empty f).run steps).finish.stream e'.kind,
            r.Repeats e.record ∧ r'.Repeats e'.record ∧ r.time ≠ r'.time := by
  refine ⟨?_, fun s => exists_read?_stamp_iff, ?_, ?_, ?_, ?_⟩
  · intro cs t
    rw [read?_eq_some_iff]
    constructor
    · rintro ⟨s, htext, htells⟩
      exact ⟨s, ⟨htext, htells⟩, fun s' h => Stamp.text_injective (h.1.trans htext.symm)⟩
    · exact ExistsUnique.exists
  · intro s t hplain ht
    have htells := read?_stamp_iff.mp ht
    exact ⟨htells.hour, htells.minute, htells.second, htells.nano_exact hplain.fraction⟩
  · intro s s' t t' ht ht'
    have halike := (read?_stamp_iff.mp ht).eq_iff_alike (read?_stamp_iff.mp ht')
    exact ⟨halike, fun hplain hplain' =>
      halike.trans (Stamp.alike_iff_same hplain.fraction hplain'.fraction)⟩
  · intro line e he
    obtain ⟨s, h⟩ := Stamp.exists_heads he
    exact ⟨s, h, h.tells he⟩
  · intro s s' line line' e e' h h' he he' hne
    constructor
    · intro hrepeats
      exact hne (((h.tells he).eq_iff_alike (h'.tells he')).mp hrepeats.1)
    · intro steps hline hline'
      exact Stamp.exists_of_not_alike h h' he he' hne hline hline'

/-! ## Stamps of ten o'clock -/

namespace Stamp

def pastTen (fraction : List Char) (h : fraction.all Char.isDigit = true) : Stamp where
  hour := .plain "10".toList (Decimal.allDigits_of_all rfl) (Or.inr rfl)
  minute := .plain "00".toList (Decimal.allDigits_of_all rfl) (Or.inr rfl)
  second := .plain "00".toList (Decimal.allDigits_of_all rfl) (Or.inr rfl)
  fraction := fraction
  fraction_digits := Decimal.allDigits_of_all h

/-- Ten o'clock with white space in front of the minute. -/
def tabbedTen : Stamp :=
  { pastTen [] rfl with
    minute := ⟨['\t'], "00".toList, List.forall_mem_singleton.mpr rfl, Decimal.allDigits_of_all rfl, Or.inr rfl⟩ }

end Stamp

/-- Half a second past ten, and a twentieth. -/
def halfAndTwentieth : List Step :=
  [.line "10:00:00.5 TTT in 1".toList, .line "10:00:00.05 TTT in 1".toList]

theorem TimeOfDay.read?_by_grammar_halfAndTwentieth :
    (∃ t t', read? (Stamp.pastTen "5".toList rfl).text = some t ∧
      read? (Stamp.pastTen "05".toList rfl).text = some t' ∧
      (Stamp.pastTen "5".toList rfl).Plain ∧ (Stamp.pastTen "05".toList rfl).Plain ∧
      (t = t' ↔ (Stamp.pastTen "5".toList rfl).Same (Stamp.pastTen "05".toList rfl)) ∧
      t.nano * 10 = 5 * 10 ^ 9 ∧ t'.nano * 100 = 5 * 10 ^ 9) ∧
    ∃ e e', Entry.ofLine .default "10:00:00.5 TTT in 1".toList = .ok e ∧
      Entry.ofLine .default "10:00:00.05 TTT in 1".toList = .ok e' ∧
      (Stamp.pastTen "5".toList rfl).Heads "10:00:00.5 TTT in 1".toList ∧
      (Stamp.pastTen "05".toList rfl).Heads "10:00:00.05 TTT in 1".toList ∧
      ¬ (Stamp.pastTen "5".toList rfl).Alike (Stamp.pastTen "05".toList rfl) ∧
      ¬ e.record.Repeats e'.record ∧
      ∃ r ∈ ((Store.empty .default).run halfAndTwentieth).finish.stream e.kind,
        ∃ r' ∈ ((Store.empty .default).run halfAndTwentieth).finish.stream e'.kind,
          r.Repeats e.record ∧ r'.Repeats e'.record ∧ r.time ≠ r'.time := by
  obtain ⟨_, _, hexact, htimes, _, hrecords⟩ := TimeOfDay.read?_by_grammar .default
  let half := Stamp.pastTen "5".toList rfl
  let twentieth := Stamp.pastTen "05".toList rfl
  have hhalf : half.Plain := ⟨rfl, rfl, rfl, by decide⟩
  have htwentieth : twentieth.Plain := ⟨rfl, rfl, rfl, by decide⟩
  have hne : ¬ half.Alike twentieth := fun h => absurd h.fraction (by decide)
  have hread : read? half.text =
      some ⟨10, 0, 0, 500000000, by decide, by decide, by decide, by decide⟩ := by decide +kernel
  have hread' : read? twentieth.text =
      some ⟨10, 0, 0, 50000000, by decide, by decide, by decide, by decide⟩ := by decide +kernel
  have hheads : half.Heads "10:00:00.5 TTT in 1".toList :=
    ⟨⟨"10:00:00.5".toList, "TTT".toList, "in".toList, "1".toList, by decide⟩, by decide, by decide⟩
  have hheads' : twentieth.Heads "10:00:00.05 TTT in 1".toList :=
    ⟨⟨"10:00:00.05".toList, "TTT".toList, "in".toList, "1".toList, by decide⟩, by decide, by decide⟩
  have he : Entry.ofLine .default "10:00:00.5 TTT in 1".toList =
      .ok ⟨⟨10, 0, 0, 500000000, by decide, by decide, by decide, by decide⟩, .ttt, "in", .ofNat 1⟩ := by
    decide +kernel
  have he' : Entry.ofLine .default "10:00:00.05 TTT in 1".toList =
      .ok ⟨⟨10, 0, 0, 50000000, by decide, by decide, by decide, by decide⟩, .ttt, "in", .ofNat 1⟩ := by
    decide +kernel
  obtain ⟨hrepeats, hboth⟩ := hrecords half twentieth _ _ _ _ hheads hheads' he he' hne
  refine ⟨⟨_, _, hread, hread', hhalf, htwentieth, (htimes _ _ _ _ hread hread').2 hhalf htwentieth,
    (hexact _ _ hhalf hread).2.2.2, (hexact _ _ htwentieth hread').2.2.2⟩, ?_⟩
  exact ⟨_, _, he, he', hheads, hheads', hne, hrepeats,
    hboth halfAndTwentieth (List.mem_cons_self ..) (List.mem_cons_of_mem _ (List.mem_cons_self ..))⟩

/-- **Two stamps with ten digits of a fraction are one time, and of two readings that bear them one is
lost.** Neither is of the documented form, nor is a stamp with a tab in it, which is read as well. -/
theorem TimeOfDay.read?_tenDigits :
    (read? "10:00:00.1234567891".toList).isSome = true ∧
    read? "10:00:00.1234567891".toList = read? "10:00:00.1234567892".toList ∧
    (¬ ∃ s : Stamp, s.Plain ∧ s.text = "10:00:00.1234567891".toList) ∧
    ((Store.empty .default).run [.line "10:00:00.1234567891 TTT in 1".toList,
        .line "10:00:00.1234567892 TTT in 1".toList]).finish.ttt.length = 1 ∧
    read? "10:\t00:00".toList = some .tenOClock ∧
    ¬ ∃ s : Stamp, s.Plain ∧ s.text = "10:\t00:00".toList := by
  refine ⟨by decide +kernel, by decide +kernel, ?_, ?_, by decide +kernel, ?_⟩
  · rintro ⟨s, hplain, htext⟩
    obtain rfl : s = Stamp.pastTen "1234567891".toList rfl := Stamp.text_injective htext
    exact absurd hplain.fraction (by decide)
  · have haccepted : accepted .default .ttt
        (arrivals [.line "10:00:00.1234567891 TTT in 1".toList,
          .line "10:00:00.1234567892 TTT in 1".toList]) =
        List.replicate 2 ⟨⟨10, 0, 0, 123456789, by decide, by decide, by decide, by decide⟩, "in", .ofNat 1⟩ := by
      decide +kernel
    have hstream := Store.stream_run_empty .default [.line "10:00:00.1234567891 TTT in 1".toList,
      .line "10:00:00.1234567892 TTT in 1".toList] .ttt
    rw [haccepted] at hstream
    exact (congrArg List.length hstream).trans
      (congrArg List.length (RecordSet.normalize_pair_of_repeats (Record.repeats_rfl _)))
  · rintro ⟨s, hplain, htext⟩
    obtain rfl : s = Stamp.tabbedTen := Stamp.text_injective htext
    exact absurd hplain.minute (by decide)

end LatencyLog
