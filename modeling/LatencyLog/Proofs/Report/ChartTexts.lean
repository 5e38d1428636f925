import LatencyLog.Proofs.Json.Escaping
import LatencyLog.Proofs.Json.Layouts
import LatencyLog.Proofs.Report.Charts
import LatencyLog.Proofs.Text.Times
import LatencyLog.Proofs.Topology.RoundTrip

/-!
# Charts and their texts

Nothing of a chart is lost in its text. A number has to come back exactly, with the sign of a zero, from
whichever layout it was written in; a time in each of its widths; a text through its escapes. Each kind of
leaf is one lemma, and a lemma for each structure puts its fields together by their names. What could not
come back is a number that is not finite, which is null as is a smoothed value that there is none of; so
`IsFinite` is asked of every float.

The trees are told from their texts apart from that: every chart is written as well-spelled JSON, finite or
not (`Chart.wellSpelled_toJson`).
-/

namespace LatencyLog

/-! ## Leaves -/

namespace Json

@[simp]
theorem fields?_ofFields (fields : List (String × Json)) : (ofFields fields).fields? = some fields :=
  mapM_named? fields

@[simp]
theorem natural?_ofNat (n : Nat) : (ofNat n).natural? = some n := by
  rw [ofNat, natural?, if_pos (Decimal.allDigits_toDigits n).all, Decimal.natOfDigits_toDigits]

@[simp]
theorem word?_ofWord (w : UInt64) : (ofWord w).word? = some w := by
  rw [ofWord, word?, natural?_ofNat, Option.bind_some, if_pos w.toNat_lt_size, UInt64.ofNat_toNat]

@[simp]
theorem time?_ofTime (t : TimeOfDay) : (ofTime t).time? = some t := by
  rw [ofTime, time?, text?, unescape?_escape, Option.map_some, Option.bind_some, String.toList_ofList,
    TimeOfDay.read?_text]

/-- **A finite number is read as itself, its sign included.** -/
theorem number?_ofFloat {x : Binary64} (h : x.isFinite = true) : (ofFloat x).number? = some x := by
  cases x with
  | finite s m =>
    obtain ⟨n, htext, hvalue⟩ := Numeral.exists_numeral_writeFinite s m
    rw [ofFloat, number?, ← htext, n.literal?_text, hvalue]
  | _ => cases h

theorem numberOrNull?_of_finite {value : Option Binary64} (h : ∀ x ∈ value, x.isFinite = true) :
    numberOrNull? ((value.map ofFloat).getD null) = some value := by
  cases value with
  | none => rfl
  | some x =>
    have hx := h x rfl
    have hread := number?_ofFloat hx
    cases x with
    | finite s m => exact congrArg (Option.map some) hread
    | _ => cases hx

theorem mapM_map_eq {α : Type} {write : α → Json} {read : Json → Option α} {xs : List α}
    (h : ∀ x ∈ xs, read (write x) = some x) : (xs.map write).mapM read = some xs := by
  induction xs with
  | nil => rfl
  | cons x xs ih =>
    obtain ⟨hx, h⟩ := List.forall_mem_cons.mp h
    rw [List.map_cons, List.mapM_cons, hx, ih h]
    rfl

end Json

open Json

theorem Tally.ofJson?_toJson (t : Tally) : Tally.ofJson? t.toJson = some t := by
  simp [Tally.ofJson?, Tally.toJson, field?]

theorem Distribution.ofJson?_toJson (d : Distribution) : Distribution.ofJson? d.toJson = some d := by
  simp [Distribution.ofJson?, Distribution.toJson, field?]

theorem Point.ofJson?_toJson {p : Point} (h : p.value.isFinite = true) :
    Point.ofJson? p.toJson = some p := by
  simp [Point.ofJson?, Point.toJson, field?, number?_ofFloat h]

theorem SmoothedPoint.ofJson?_toJson {p : SmoothedPoint} (h : ∀ x ∈ p.value, x.isFinite = true) :
    SmoothedPoint.ofJson? p.toJson = some p := by
  simp [SmoothedPoint.ofJson?, SmoothedPoint.toJson, field?, numberOrNull?_of_finite h]

theorem SeriesKind.ofName?_name (k : SeriesKind) : SeriesKind.ofName? k.name = some k := by
  cases k <;> decide +kernel

theorem LatencyUnit.ofName?_name (u : LatencyUnit) : LatencyUnit.ofName? u.name = some u := by
  cases u <;> decide +kernel

/-- The floats of a summary are finite. -/
structure Summary.IsFinite (s : Summary) : Prop where
  mean : s.meanNanos.isFinite = true
  raw : ∀ p ∈ s.raw, p.value.isFinite = true
  smoothed : ∀ p ∈ s.smoothed, ∀ x ∈ p.value, x.isFinite = true

/-- The floats of an outcome are finite. -/
def Outcome.IsFinite (o : Outcome) : Prop := ∀ s, o = .summarized s → s.IsFinite

theorem Outcome.ofJson?_toJson {o : Outcome} (h : o.IsFinite) : Outcome.ofJson? o.toJson = some o := by
  cases o with
  | insufficient usable => simp [Outcome.ofJson?, Outcome.toJson, field?]
  | summarized s =>
    obtain ⟨hmean, hraw, hsmoothed⟩ := h s rfl
    have hraw := mapM_map_eq fun p hp => Point.ofJson?_toJson (hraw p hp)
    have hsmoothed := mapM_map_eq fun p hp => SmoothedPoint.ofJson?_toJson (hsmoothed p hp)
    simp [Outcome.ofJson?, Outcome.toJson, Summary.ofFields?, field?, elements?, hraw, hsmoothed,
      number?_ofFloat hmean, SeriesKind.ofName?_name, LatencyUnit.ofName?_name,
      Distribution.ofJson?_toJson]

theorem ChartSeries.ofJson?_toJson {s : ChartSeries} (h : s.outcome.IsFinite) :
    ChartSeries.ofJson? s.toJson = some s := by
  obtain ⟨name, hop, outcome⟩ := s
  have houtcome := Outcome.ofJson?_toJson h
  cases hop with
  | none => simp [ChartSeries.ofJson?, ChartSeries.toJson, fieldsNamed, field?, houtcome]
  | some hop =>
    simp [ChartSeries.ofJson?, ChartSeries.toJson, fieldsNamed, field?, houtcome, Hop.ofJson?_toJson]

/-- All floats of a chart are finite. -/
structure Chart.IsFinite (c : Chart) : Prop where
  ghz : c.ghz.isFinite = true
  rdtsc : ∀ s ∈ c.rdtsc, s.outcome.IsFinite
  hops : ∀ s ∈ c.hops, s.outcome.IsFinite

theorem Chart.ofJson?_toJson {c : Chart} (h : c.IsFinite) : Chart.ofJson? c.toJson = some c := by
  have hrdtsc := mapM_map_eq fun s hs => ChartSeries.ofJson?_toJson (h.rdtsc s hs)
  have hhops := mapM_map_eq fun s hs => ChartSeries.ofJson?_toJson (h.hops s hs)
  simp [Chart.ofJson?, Chart.toJson, field?, elements?, hrdtsc, hhops, number?_ofFloat h.ghz,
    Tally.ofJson?_toJson]

/-! ## Spelling -/

theorem Tally.wellSpelled_toJson (t : Tally) : t.toJson.WellSpelled :=
  wellSpelled_ofFields (by simp [ofWord])

theorem Distribution.wellSpelled_toJson (d : Distribution) : d.toJson.WellSpelled :=
  wellSpelled_ofFields (by simp)

theorem Point.wellSpelled_toJson (p : Point) : p.toJson.WellSpelled :=
  wellSpelled_ofFields (by simp [ofTime])

theorem SmoothedPoint.wellSpelled_toJson (p : SmoothedPoint) : p.toJson.WellSpelled := by
  cases h : p.value <;> exact wellSpelled_ofFields (by simp [ofTime, h])

theorem Outcome.wellSpelled_toJson (o : Outcome) : o.toJson.WellSpelled := by
  cases o with
  | insufficient usable => exact wellSpelled_ofFields (by simp)
  | summarized s =>
    have hraw := wellSpelled_array (List.forall_mem_map.mpr fun p (_ : p ∈ s.raw) => p.wellSpelled_toJson)
    have hsmoothed :=
      wellSpelled_array (List.forall_mem_map.mpr fun p (_ : p ∈ s.smoothed) => p.wellSpelled_toJson)
    exact wellSpelled_ofFields (by simp [hraw, hsmoothed, s.distribution.wellSpelled_toJson])

theorem ChartSeries.wellSpelled_toJson (s : ChartSeries) : s.toJson.WellSpelled := by
  cases h : s.hop <;>
    exact wellSpelled_ofFields (by simp [h, s.outcome.wellSpelled_toJson, Hop.wellSpelled_toJson])

theorem Chart.wellSpelled_toJson (c : Chart) : c.toJson.WellSpelled := by
  have hrdtsc := wellSpelled_array (List.forall_mem_map.mpr fun s (_ : s ∈ c.rdtsc) => s.wellSpelled_toJson)
  have hhops := wellSpelled_array (List.forall_mem_map.mpr fun s (_ : s ∈ c.hops) => s.wellSpelled_toJson)
  exact wellSpelled_ofFields (by simp [hrdtsc, hhops, c.tally.wellSpelled_toJson])

/-! ## Texts -/

/-- Every chart is written as JSON, and the tree that is read is the one that was written. -/
theorem Chart.read?_json_written (c : Chart) : Json.read? c.written = some c.toJson :=
  read?_pretty c.wellSpelled_toJson

theorem Chart.read?_written {c : Chart} (h : c.IsFinite) : Chart.read? c.written = some c := by
  rw [Chart.read?, c.read?_json_written, Option.bind_some, Chart.ofJson?_toJson h]

/-! ## Reports -/

namespace Report

theorem toJson_chart (r : Report) : r.chart.toJson = r.toJson := by
  have hrdtsc : r.chart.rdtsc.map ChartSeries.toJson = r.rdtsc.map TagReport.toJson := by
    rw [chart, List.map_map]
    rfl
  have hhops : r.chart.hops.map ChartSeries.toJson = r.hops.map HopReport.toJson := by
    rw [chart, List.map_map]
    rfl
  rw [Chart.toJson, hrdtsc, hhops]
  rfl

/-- A report is written as its chart. -/
theorem written_chart (r : Report) : r.chart.written = r.written :=
  congrArg Json.pretty r.toJson_chart

theorem series_injective : Function.Injective TagReport.series := by
  rintro ⟨tag, outcome⟩ ⟨tag', outcome'⟩ h
  obtain ⟨rfl, _, rfl⟩ := ChartSeries.mk.inj h
  rfl

theorem hop_series_injective : Function.Injective HopReport.series := by
  rintro ⟨hop, outcome⟩ ⟨hop', outcome'⟩ h
  obtain ⟨_, hhop, rfl⟩ := ChartSeries.mk.inj h
  cases hhop
  rfl

theorem chart_injective : Function.Injective chart := by
  intro r s h
  obtain ⟨ghz, tally, rdtscRecords, tttRecords, rdtsc, hops⟩ := r
  obtain ⟨ghz', tally', rdtscRecords', tttRecords', rdtsc', hops'⟩ := s
  simp only [chart, Chart.mk.injEq] at h
  obtain ⟨rfl, rfl, rfl, rfl, hrdtsc, hhops⟩ := h
  rw [List.map_injective_iff.mpr series_injective hrdtsc,
    List.map_injective_iff.mpr hop_series_injective hhops]

end Report

/-! ## What is lost -/

/-- **A chart in JSON loses nothing.** Its text is that of a tree, whatever its numbers are. Where they are
finite, the chart is read from the text, field by field; so two charts that differ in anything have
different texts. What is written for a report is written for its chart, and of different reports these
differ. -/
theorem Chart.written_loses_nothing :
    (∀ c : Chart, Json.read? c.written = some c.toJson) ∧
    (∀ c : Chart, c.IsFinite → Chart.read? c.written = some c) ∧
    (∀ c d : Chart, c.IsFinite → d.IsFinite → c ≠ d → c.written ≠ d.written) ∧
    (∀ r : Report, r.chart.written = r.written) ∧
    ∀ r s : Report, r.chart.IsFinite → s.chart.IsFinite → r ≠ s → r.written ≠ s.written := by
  have hread : ∀ c : Chart, c.IsFinite → Chart.read? c.written = some c := fun _ => Chart.read?_written
  have hdiffer : ∀ c d : Chart, c.IsFinite → d.IsFinite → c ≠ d → c.written ≠ d.written := by
    intro c d hc hd hne heq
    have h := hread c hc
    rw [heq, hread d hd] at h
    exact hne (Option.some.inj h).symm
  refine ⟨Chart.read?_json_written, hread, hdiffer, Report.written_chart, ?_⟩
  intro r s hr hs hne
  rw [← r.written_chart, ← s.written_chart]
  exact hdiffer _ _ hr hs (Report.chart_injective.ne hne)

def leastPositive : Binary64 := .ofDecimal false 5 (-324)

def greatestFinite : Binary64 := .ofDecimal false 17976931348623157 292

theorem isFinite_leastPositive : leastPositive.isFinite = true := by decide +kernel

theorem isFinite_greatestFinite : greatestFinite.isFinite = true := by decide +kernel

/-- Names that need escapes, a leap second, and the zeros and the ends of the numbers. -/
def extremesChart (zeroNegative : Bool) : Chart where
  ghz := leastPositive
  tally := .zero
  rdtscRecords := 2
  tttRecords := 0
  rdtsc :=
    [{ name := "\"a\\\n\x01😀"
       hop := none
       outcome := .summarized
        { kind := .point
          unit := .nanoseconds
          count := 2
          meanNanos := greatestFinite
          window := 1
          distribution := ⟨0, 0, 0, 0, 0, 0⟩
          raw := [⟨⟨23, 59, 60, 500000000, by decide, by decide, by decide, by decide⟩,
            .finite zeroNegative .zero⟩]
          smoothed := [⟨⟨0, 1, 2, 3, by decide, by decide, by decide, by decide⟩, none⟩] } }]
  hops := [⟨"", some ⟨"in", "out"⟩, .insufficient 1⟩]

theorem isFinite_extremesChart (zeroNegative : Bool) : (extremesChart zeroNegative).IsFinite where
  ghz := by
    dsimp only [extremesChart]
    exact isFinite_leastPositive
  rdtsc := by
    intro s hs
    obtain rfl := List.mem_singleton.mp hs
    rintro _ ⟨rfl⟩
    refine ⟨?_, by simp [Binary64.isFinite], by simp⟩
    dsimp only
    exact isFinite_greatestFinite
  hops := by
    intro s hs
    obtain rfl := List.mem_singleton.mp hs
    rintro _ ⟨⟩

theorem Chart.written_loses_nothing_extremesChart :
    (extremesChart true).IsFinite ∧ (extremesChart false).IsFinite ∧
      Chart.read? (extremesChart true).written = some (extremesChart true) ∧
      (extremesChart true).written ≠ (extremesChart false).written := by
  obtain ⟨_, hread, hdiffer, _, _⟩ := Chart.written_loses_nothing
  have htrue := isFinite_extremesChart true
  have hfalse := isFinite_extremesChart false
  refine ⟨htrue, hfalse, hread _ htrue, hdiffer _ _ htrue hfalse ?_⟩
  intro h
  have hraw := congrArg (fun c => c.rdtsc.map ChartSeries.outcome) h
  simp [extremesChart] at hraw

end LatencyLog
