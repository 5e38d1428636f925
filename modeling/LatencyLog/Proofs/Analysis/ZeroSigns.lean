import LatencyLog.Analysis
import LatencyLog.Proofs.Store.Repetition

/-!
# A report does not show the sign of a zero

Which of two zeros a stream keeps is an accident: the one that came first. This file is about why
nobody can tell. Replacing every zero of a record set by the positive one leaves its report as it was
(`analyze_canonical`), and it takes three observations to see that.

* Tags and counts are not about values.
* A summary looks at usable values only, and no zero is usable (`summarize_canonical`).
* A hop is about differences, and there the sign of a zero can show: `0 - 0` is not `-0 - 0`. But
  the two are zeros again, and a transit is a difference that is positive (`transits_canonical`).
-/

namespace LatencyLog

open Binary64 (valueKey_of_pos lt_valueKey valueKey_sub)
open Record (valueKey)

def Point.canonical (p : Point) : Point := ⟨p.time, valueKey p.value⟩

/-- A record set with the positive zero for any zero. -/
def RecordSet.canonical (set : RecordSet) : RecordSet :=
  ⟨set.rdtsc.map Record.canonical, set.ttt.map Record.canonical, set.tally⟩

/-! ## Usable values -/

theorem isUsable_valueKey (x : Binary64) : (valueKey x).isUsable = x.isUsable := by
  by_cases h : x = Binary64.negativeZero
  · rw [h, Binary64.valueKey_negativeZero]
    rfl
  · rw [Binary64.valueKey_of_ne h]

theorem valueKey_of_isUsable {x : Binary64} (h : x.isUsable = true) : valueKey x = x :=
  valueKey_of_pos (Bool.and_eq_true_iff.mp h).1

theorem usable_cons_of_pos {p : Point} (ps : List Point) (h : p.value.isUsable = true) :
    Series.usable (p :: ps) = p :: Series.usable ps := List.filter_cons_of_pos h

theorem usable_cons_of_neg {p : Point} (ps : List Point) (h : ¬ p.value.isUsable = true) :
    Series.usable (p :: ps) = Series.usable ps := List.filter_cons_of_neg h

theorem usable_canonical (points : List Point) :
    Series.usable (points.map Point.canonical) = Series.usable points := by
  induction points with
  | nil => rfl
  | cons p ps ih =>
    have hp : p.canonical.value.isUsable = p.value.isUsable := isUsable_valueKey p.value
    by_cases h : p.value.isUsable = true
    · have hself : p.canonical = p := by rw [Point.canonical, valueKey_of_isUsable h]
      rw [List.map_cons, hself, usable_cons_of_pos _ h, usable_cons_of_pos _ h, ih]
    · rw [List.map_cons, usable_cons_of_neg _ (by rwa [hp]), usable_cons_of_neg _ h, ih]

/-- Everything in a summary is made of usable points. -/
theorem summarize_congr {points points' : List Point}
    (h : Series.usable points = Series.usable points') (kind : SeriesKind) :
    Series.summarize kind points = Series.summarize kind points' := by
  rw [Series.summarize, Series.summarize, h]

theorem summarize_canonical (kind : SeriesKind) (points : List Point) :
    Series.summarize kind (points.map Point.canonical) = Series.summarize kind points :=
  summarize_congr (usable_canonical points) kind

/-! ## Transits -/

theorem transit?_canonical (hop : Hop) (before : Binary64) (event : Record) :
    hop.transit? (valueKey before) event.canonical = hop.transit? before event := by
  have hsub : valueKey (event.canonical.value - valueKey before) =
      valueKey (event.value - before) := valueKey_sub event.value before
  have hpos : Binary64.zero.lt (event.canonical.value - valueKey before) =
      Binary64.zero.lt (event.value - before) := by
    rw [← lt_valueKey, hsub, lt_valueKey]
  by_cases h : Binary64.zero.lt (event.value - before) = true
  · -- Positive differences with one key are one.
    have heq : event.canonical.value - valueKey before = event.value - before := by
      rw [← valueKey_of_pos (hpos.trans h), hsub, valueKey_of_pos h]
    rw [Hop.transit?, Hop.transit?, heq]
    rfl
  · rw [Hop.transit?, Hop.transit?, hpos, Bool.eq_false_iff.mpr h]
    rfl

/-- Tags decide which events count for a hop, so they can be selected first. -/
theorem select_canonical (hop : Hop) (stream : List Record) :
    hop.select (stream.map Record.canonical) = (hop.select stream).map Record.canonical :=
  List.filter_map

def Hop.Watch.canonical (watch : Hop.Watch) : Hop.Watch :=
  ⟨watch.reading.map valueKey, watch.transits⟩

theorem observe_canonical (hop : Hop) (watch : Hop.Watch) (event : Record) :
    hop.observe watch.canonical event.canonical = (hop.observe watch event).canonical := by
  obtain ⟨reading, transits⟩ := watch
  cases reading with
  | none => rfl
  | some before =>
    have h := transit?_canonical hop before event
    simp only [Hop.observe, Hop.Watch.canonical, Option.map_some, Option.bind_some, h]
    rfl

theorem observe_foldl_canonical (hop : Hop) (events : List Record) (watch : Hop.Watch) :
    (events.map Record.canonical).foldl hop.observe watch.canonical =
      (events.foldl hop.observe watch).canonical := by
  induction events generalizing watch with
  | nil => rfl
  | cons event events ih =>
    rw [List.map_cons, List.foldl_cons, List.foldl_cons, observe_canonical]
    exact ih (hop.observe watch event)

theorem transits_canonical (hop : Hop) (stream : List Record) :
    hop.transits (stream.map Record.canonical) = hop.transits stream := by
  rw [Hop.transits, Hop.transits, select_canonical]
  exact congrArg (fun watch => watch.transits.toList)
    (observe_foldl_canonical hop (hop.select stream) .start)

/-! ## Reports -/

theorem tagReport_canonical (set : RecordSet) (tag : String) :
    Analysis.tagReport set.canonical tag = Analysis.tagReport set tag := by
  have hpoints : (set.canonical.rdtscFor tag).map Record.point =
      ((set.rdtscFor tag).map Record.point).map Point.canonical := by
    rw [RecordSet.rdtscFor, RecordSet.canonical, List.filter_map, List.map_map, List.map_map]
    rfl
  rw [Analysis.tagReport, hpoints, summarize_canonical]
  rfl

theorem rdtscTags_canonical (set : RecordSet) : set.canonical.rdtscTags = set.rdtscTags := by
  rw [RecordSet.rdtscTags, RecordSet.canonical, List.map_map]
  rfl

theorem tagReports_canonical (set : RecordSet) :
    Analysis.tagReports set.canonical = Analysis.tagReports set := by
  rw [Analysis.tagReports, Analysis.tagReports, rdtscTags_canonical]
  exact List.map_congr_left fun tag _ => tagReport_canonical set tag

theorem hopReports_canonical (topology : Topology) (set : RecordSet) :
    Analysis.hopReports topology set.canonical = Analysis.hopReports topology set := by
  have htransits : topology.transits (set.ttt.map Record.canonical) = topology.transits set.ttt :=
    List.map_congr_left fun hop _ => by rw [transits_canonical]
  have hempty : set.canonical.ttt.isEmpty = set.ttt.isEmpty := List.isEmpty_map
  rw [Analysis.hopReports, Analysis.hopReports, hempty]
  show (if set.ttt.isEmpty then [] else (topology.transits (set.ttt.map Record.canonical)).map _) = _
  rw [htransits]

/-- **A report is the report on the record set without the signs of zeros.** -/
theorem analyze_canonical (config : Config) (set : RecordSet) :
    analyze config set.canonical = analyze config set := by
  have hrdtsc : set.canonical.rdtsc.length = set.rdtsc.length := List.length_map _
  have httt : set.canonical.ttt.length = set.ttt.length := List.length_map _
  rw [analyze, analyze, hrdtsc, httt, tagReports_canonical, hopReports_canonical]
  rfl

end LatencyLog
