import LatencyLog.Proofs.Analysis.Sufficiency
import LatencyLog.Proofs.Series.Numbers
import LatencyLog.Proofs.Store.Tags

/-!
# Reports in the order of time

Nothing in a report is sorted by time. A stream is, once, when a store is finished, and from there on the
order has to survive: records are told apart by their tags, readings become differences of readings,
differences are dropped that are not positive, values are dropped that are not usable, both tails are cut
off, and then times and values are put together again, from two lists.

So what is followed through all of this is not an order but a list of times (`Outcome.Along`). Each stage
leaves some of them, in the order in which it found them, and that they are in the order of time is only
said of the stream. It also says how much there can be: one point for a record and not more.
-/

namespace LatencyLog

/-! ## Along times -/

/-- What a summary shows is shown at some of these times, in their order. -/
structure Summary.Along (s : Summary) (times : List TimeOfDay) : Prop where
  raw : (s.raw.map Point.time).Sublist times
  smoothed : (s.smoothed.map SmoothedPoint.time).Sublist times
  count_le : s.count ≤ times.length

/-- What a summary shows is in the order of time. -/
structure Summary.Chronological (s : Summary) : Prop where
  raw : (s.raw.map Point.time).Pairwise (· ≤ ·)
  smoothed : (s.smoothed.map SmoothedPoint.time).Pairwise (· ≤ ·)

namespace Outcome

/-- Nothing is shown but at these times, in their order, and nothing twice at one of them. -/
def Along (times : List TimeOfDay) : Outcome → Prop
  | .summarized s => s.Along times
  | .insufficient usable => usable ≤ times.length

def Chronological : Outcome → Prop
  | .summarized s => s.Chronological
  | .insufficient _ => True

variable {outcome : Outcome} {times times' : List TimeOfDay}

theorem Along.of_sublist (h : outcome.Along times) (hsub : times.Sublist times') :
    outcome.Along times' := by
  cases outcome with
  | summarized s =>
    exact ⟨h.raw.trans hsub, h.smoothed.trans hsub, Nat.le_trans h.count_le hsub.length_le⟩
  | insufficient usable => exact Nat.le_trans h hsub.length_le

theorem Along.chronological (h : outcome.Along times) (hordered : times.Pairwise (· ≤ ·)) :
    outcome.Chronological := by
  cases outcome with
  | summarized s => exact ⟨hordered.sublist h.raw, hordered.sublist h.smoothed⟩
  | insufficient usable => trivial

end Outcome

/-! ## From points to an outcome -/

/-- What is shown has the times of the points that were kept. -/
theorem Summary.Shows.along {s : Summary} {kind : SeriesKind} {kept : List Point}
    (h : s.Shows kind kept) : s.Along (kept.map Point.time) := by
  have hraw : s.raw.map Point.time = kept.map Point.time := by
    rw [h.raw_eq, List.map_map]
    rfl
  constructor
  · rw [hraw]
  · rw [h.times_eq, hraw]
  · rw [List.length_map]
    exact Nat.le_of_eq h.count_eq

/-- **A summary goes along the times of its points.** -/
theorem summarize_along (kind : SeriesKind) (points : List Point) :
    (Series.summarize kind points).Along (points.map Point.time) := by
  have husable : (Series.usable points).Sublist points := List.filter_sublist
  cases h : Series.summarize kind points with
  | summarized s =>
    -- Dropping and trimming leave a sublist; only then are there times again that were put together.
    obtain ⟨kept, _, hkept, hshows⟩ := Series.exists_shows h
    have halong : (Outcome.summarized s).Along (kept.map Point.time) := hshows.along
    exact halong.of_sublist ((hkept.trans husable).map Point.time)
  | insufficient n =>
    obtain ⟨_, rfl⟩ := Series.summarize_eq_insufficient_iff.mp h
    show (Series.usable points).length ≤ (points.map Point.time).length
    rw [List.length_map]
    exact husable.length_le

theorem hopOutcome_along (transits : List Point) :
    (Analysis.hopOutcome transits).Along (transits.map Point.time) := by
  unfold Analysis.hopOutcome
  split
  · exact summarize_along .hop transits
  · exact Nat.le_of_eq (List.length_map Point.time).symm

/-! ## From records to points -/

/-- The records at the destination of a hop. -/
def Hop.atDestination (hop : Hop) (stream : List Record) : List Record :=
  stream.filter fun r => decide (r.tag = hop.destination)

/-- **Transits go along the times of the records at the destination.** One more record adds a transit only
if it is at the destination, and then at its own time. -/
theorem times_transits_sublist (hop : Hop) (stream : List Record) :
    ((hop.transits stream).map Point.time).Sublist ((hop.atDestination stream).map Record.time) := by
  -- From the end, as what a record completes depends on the records before it.
  induction stream using List.reverseRecOn with
  | nil => exact List.Sublist.refl _
  | append_singleton stream r ih =>
    rw [Hop.transits_concat, Hop.atDestination, List.filter_append, List.map_append, List.map_append]
    apply ih.append
    cases h : hop.completed? stream r with
    | none => exact List.nil_sublist _
    | some p =>
      obtain ⟨_, _, htag, _, rfl⟩ := Hop.completed?_eq_some_iff.mp h
      simp [htag]

/-! ## Reports -/

theorem outcome_of_mem_tagReports {set : RecordSet} {report : TagReport}
    (h : report ∈ Analysis.tagReports set) :
    report.outcome = Series.summarize .point ((set.rdtscFor report.tag).map Record.point) := by
  obtain ⟨tag, _, rfl⟩ := List.mem_map.mp h
  rfl

/-- The times of some records of a stream are in order if the records are told apart in any way. -/
theorem times_filter_ordered (s : Store) (kind : EventKind) (p : Record → Bool) :
    (((s.finish.stream kind).filter p).map Record.time).Pairwise (· ≤ ·) := by
  rw [Store.finish_stream]
  exact List.pairwise_map.mpr ((RecordSet.normalize_ordered _).filter p)

/-- **A report is in the order of time.** Whatever was done to a store, each series is shown along the times
of the records that it is about, those with its tag or those at the destination of its hop. There are no
more points in it, and no more are counted, than there are records of that kind; and they are in the order
of time, smoothed or not. -/
theorem report_in_time_order (config : Config) (f : Frequency) (steps : List Step) :
    let set := ((Store.empty f).run steps).finish
    (∀ report ∈ (analyze config set).rdtsc,
      report.outcome.Along ((set.rdtscFor report.tag).map Record.time) ∧
        report.outcome.Chronological) ∧
    ∀ report ∈ (analyze config set).hops,
      report.outcome.Along ((report.hop.atDestination set.ttt).map Record.time) ∧
        report.outcome.Chronological := by
  intro set
  constructor
  · intro report hreport
    have halong : report.outcome.Along ((set.rdtscFor report.tag).map Record.time) := by
      rw [outcome_of_mem_tagReports hreport]
      have hsummary := summarize_along .point ((set.rdtscFor report.tag).map Record.point)
      rw [List.map_map] at hsummary
      exact hsummary
    exact ⟨halong, halong.chronological (times_filter_ordered _ .rdtsc _)⟩
  · intro report hreport
    have halong : report.outcome.Along ((report.hop.atDestination set.ttt).map Record.time) := by
      rw [Analysis.outcome_of_mem_hopReports hreport]
      exact (hopOutcome_along _).of_sublist (times_transits_sublist report.hop set.ttt)
    exact ⟨halong, halong.chronological (times_filter_ordered _ .ttt _)⟩

/-- Two durations with one tag, and a reading at either end of a hop. -/
def twoOfEach : List Step :=
  ["10:00:00 RDTSC parse 26", "10:00:01 TTT in 1", "10:00:02 RDTSC parse 52",
    "10:00:03 TTT out 5"].map fun text => .line text.toList

def oneHop : Config := ⟨.default, [⟨"in", "out"⟩]⟩

theorem report_in_time_order_twoOfEach :
    let set := ((Store.empty .default).run twoOfEach).finish
    (∃ s, ⟨"parse", .summarized s⟩ ∈ (analyze oneHop set).rdtsc ∧
      s.Along ((set.rdtscFor "parse").map Record.time) ∧ s.Chronological) ∧
    ⟨⟨"in", "out"⟩, .insufficient 1⟩ ∈ (analyze oneHop set).hops ∧
      1 ≤ ((Hop.mk "in" "out").atDestination set.ttt).length := by
  intro set
  have hstream : ∀ kind, set.stream kind = accepted .default kind (arrivals twoOfEach) := by
    intro kind
    have h := Store.stream_run_empty .default twoOfEach kind
    rw [h]
    apply RecordSet.normalize_of_pairwise
    · cases kind <;> decide +kernel
    · cases kind <;> decide +kernel
  have hrdtsc : set.rdtsc = accepted .default .rdtsc (arrivals twoOfEach) := hstream .rdtsc
  have httt : set.ttt = accepted .default .ttt (arrivals twoOfEach) := hstream .ttt
  have henough : Series.minSamples ≤
      (Series.usable ((set.rdtscFor "parse").map Record.point)).length := by
    rw [RecordSet.rdtscFor, hrdtsc]
    decide +kernel
  obtain ⟨s, hsummary⟩ : ∃ s,
      Series.summarize .point ((set.rdtscFor "parse").map Record.point) = .summarized s := by
    obtain ⟨_, _, h⟩ := Series.summarize_of_enough henough .point
    exact ⟨_, h⟩
  have hreport : ⟨"parse", .summarized s⟩ ∈ (analyze oneHop set).rdtsc := by
    refine List.mem_map.mpr ⟨"parse", ?_, congrArg (TagReport.mk "parse") hsummary⟩
    rw [RecordSet.mem_rdtscTags_iff, hrdtsc]
    decide +kernel
  have hhop : ⟨⟨"in", "out"⟩, .insufficient 1⟩ ∈ (analyze oneHop set).hops := by
    show _ ∈ Analysis.hopReports oneHop.topology set
    rw [Analysis.hopReports_eq_map, httt]
    decide +kernel
  obtain ⟨htags, hhops⟩ := report_in_time_order oneHop .default twoOfEach
  obtain ⟨halong, hchronological⟩ := htags _ hreport
  have hcount := (hhops _ hhop).1
  rw [Outcome.Along, List.length_map] at hcount
  exact ⟨⟨s, hreport, halong, hchronological⟩, hhop, hcount⟩

end LatencyLog
