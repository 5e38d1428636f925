import LatencyLog.Analysis
import LatencyLog.Proofs.Series.Shape
import LatencyLog.Proofs.Transit.Neighbours

/-!
# Two ways to be too few

Whether a hop has enough transits is asked twice. The analysis counts transits, and summarizes if there
are two of them; the summary counts usable values, and refuses if there are not two of those. A transit
is positive, so it is usable if it is finite, and then the questions are one.

A difference of finite readings can be infinite, though. Among two transits and more nothing comes of
that, since it is the summary that answers. *A single infinite transit* is answered by the analysis, as
one usable value, where a summary finds none (`hops_against_summaries`). Nothing is summarized either
way; it is the number that differs.
-/

namespace LatencyLog.Analysis

open Series (summarize usable)

theorem usable_eq_filter_isFinite {transits : List Point}
    (hpos : ∀ p ∈ transits, Binary64.zero.lt p.value = true) :
    usable transits = transits.filter fun p => p.value.isFinite := by
  refine List.filter_congr fun p hp => ?_
  rw [Binary64.isUsable, hpos p hp, Bool.true_and]

theorem summarize_nil (kind : SeriesKind) : summarize kind [] = .insufficient 0 :=
  Series.summarize_of_few (by decide) kind

/-- A single transit is one usable value or none. -/
theorem summarize_singleton {p : Point} (hpos : Binary64.zero.lt p.value = true)
    (kind : SeriesKind) :
    summarize kind [p] = .insufficient (if p.value.isFinite then 1 else 0) := by
  have husable : usable [p] = [p].filter fun q => q.value.isFinite := by
    refine usable_eq_filter_isFinite fun q hq => ?_
    rwa [List.mem_singleton.mp hq]
  have hlength : (usable [p]).length = if p.value.isFinite then 1 else 0 := by
    rw [husable]
    cases hfinite : p.value.isFinite with
    | true => simp [hfinite]
    | false => simp [hfinite]
  have hfew : (usable [p]).length < Series.minSamples := by
    rw [hlength]
    split <;> decide
  rw [Series.summarize_of_few hfew, hlength]

/-- **The outcome of a hop is the summary of its transits, except for a single infinite one.** -/
theorem hopOutcome_eq_summarize_iff {transits : List Point}
    (hpos : ∀ p ∈ transits, Binary64.zero.lt p.value = true) :
    hopOutcome transits = summarize .hop transits ↔
      ∀ p, transits = [p] → p.value.isFinite = true := by
  match transits with
  | [] =>
    rw [summarize_nil]
    exact iff_of_true rfl fun p hp => by cases hp
  | [p] =>
    have hsingle := summarize_singleton (hpos p (List.mem_singleton_self p)) .hop
    have houtcome : hopOutcome [p] = .insufficient 1 := rfl
    rw [hsingle, houtcome]
    cases hfinite : p.value.isFinite with
    | true => simp [hfinite]
    | false => simp [hfinite]
  | p :: q :: rest =>
    have henough : Series.isEnough (p :: q :: rest) = true :=
      decide_eq_true (Nat.le_add_left 2 rest.length)
    refine iff_of_true ?_ fun r hr => by cases hr
    rw [hopOutcome, if_pos henough]

theorem hopOutcome_of_infinite {p : Point} (hpos : Binary64.zero.lt p.value = true)
    (hfinite : p.value.isFinite = false) :
    hopOutcome [p] = .insufficient 1 ∧ summarize .hop [p] = .insufficient 0 := by
  refine ⟨rfl, ?_⟩
  rw [summarize_singleton hpos, hfinite]
  rfl

/-! ## Reports -/

/-- There is one report for each hop of the topology, unless there is no reading at all. -/
theorem hopReports_eq_map (topology : Topology) (set : RecordSet) :
    hopReports topology set =
      (if set.ttt.isEmpty then [] else topology).map fun hop =>
        ⟨hop, hopOutcome (hop.transits set.ttt)⟩ := by
  unfold hopReports
  split
  · rfl
  · rw [Topology.transits, List.map_map]
    rfl

theorem outcome_of_mem_hopReports {topology : Topology} {set : RecordSet} {report : HopReport}
    (h : report ∈ hopReports topology set) :
    report.outcome = hopOutcome (report.hop.transits set.ttt) := by
  rw [hopReports_eq_map] at h
  obtain ⟨hop, _, rfl⟩ := List.mem_map.mp h
  rfl

/-- **What a report says about a hop is the summary of its transits, unless there is just one and it is
infinite.** Then there is no summary in either case, and the report counts one usable value too many.
Each hop has its report, in the order of the topology. -/
theorem hops_against_summaries (config : Config) (set : RecordSet) :
    (analyze config set).hops.map HopReport.hop =
      (if set.ttt.isEmpty then [] else config.topology) ∧
    ∀ report ∈ (analyze config set).hops,
      (report.outcome = summarize .hop (report.hop.transits set.ttt) ↔
        ∀ p, report.hop.transits set.ttt = [p] → p.value.isFinite = true) ∧
      ∀ p, report.hop.transits set.ttt = [p] → p.value.isFinite = false →
        report.outcome = .insufficient 1 ∧
          summarize .hop (report.hop.transits set.ttt) = .insufficient 0 := by
  refine ⟨?_, fun report hreport => ?_⟩
  · show (hopReports config.topology set).map HopReport.hop = _
    rw [hopReports_eq_map, List.map_map]
    exact List.map_id _
  · have houtcome := outcome_of_mem_hopReports hreport
    have hpos : ∀ p ∈ report.hop.transits set.ttt, Binary64.zero.lt p.value = true :=
      fun p hp => Hop.lt_of_mem_transits hp
    refine ⟨?_, fun p hp hfinite => ?_⟩
    · rw [houtcome]
      exact hopOutcome_eq_summarize_iff hpos
    · rw [hp] at hpos houtcome ⊢
      rw [houtcome]
      exact hopOutcome_of_infinite (hpos p (List.mem_singleton_self p)) hfinite

/-- Two finite readings that are too far apart for a finite difference. -/
def farReadings : RecordSet :=
  ⟨[], [{ Hop.readingAt 0 "in" 0 with value := .ofDecimal true 1 308 },
    { Hop.readingAt 1 "out" 0 with value := .ofDecimal false 1 308 }], .zero⟩

/-- The outcome that counts an infinite transit as a usable value. -/
def oneUsable : HopReport := ⟨⟨"in", "out"⟩, .insufficient 1⟩

def farTransit : Point := ⟨(Hop.readingAt 1 "out" 0).time, .infinity false⟩

theorem hops_against_summaries_farReadings :
    oneUsable ∈ (analyze ⟨.default, [⟨"in", "out"⟩]⟩ farReadings).hops ∧
      oneUsable.hop.transits farReadings.ttt = [farTransit] ∧
      farTransit.value.isFinite = false ∧
      oneUsable.outcome = .insufficient 1 ∧
      summarize .hop (oneUsable.hop.transits farReadings.ttt) = .insufficient 0 := by
  have hmem : oneUsable ∈ (analyze ⟨.default, [⟨"in", "out"⟩]⟩ farReadings).hops := by
    decide +kernel
  have htransits : oneUsable.hop.transits farReadings.ttt = [farTransit] := by decide +kernel
  obtain ⟨_, hreports⟩ := hops_against_summaries ⟨.default, [⟨"in", "out"⟩]⟩ farReadings
  exact ⟨hmem, htransits, rfl, (hreports oneUsable hmem).2 farTransit htransits rfl⟩

/-- **Finite readings can give a report that a summary does not.** -/
theorem hops_farReadings :
    farReadings.ttt ≠ [] ∧ (∀ r ∈ farReadings.ttt, r.value.isFinite = true) ∧
      (analyze ⟨.default, [⟨"in", "out"⟩]⟩ farReadings).hops = [oneUsable] ∧
      summarize .hop ((Hop.mk "in" "out").transits farReadings.ttt) = .insufficient 0 ∧
      oneUsable.outcome ≠ .insufficient 0 := by
  refine ⟨by decide +kernel, by decide +kernel, by decide +kernel, by decide +kernel, by decide⟩

end LatencyLog.Analysis
