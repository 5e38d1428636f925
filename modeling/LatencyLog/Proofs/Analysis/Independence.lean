import LatencyLog.Proofs.Store.Arrivals

/-!
# What depends on what

One loop reads both kinds of lines, counts the rest and fills both streams, and yet a report falls apart
into halves that know nothing of each other. The half about hops is a function of the accepted counter
readings and the topology; the half about tags is one of the accepted durations. That is so because a
stream is made of nothing but the accepted records of its kind (`Store.stream_run_empty`), wherever they
stood among the others.

The frequency comes in at one place, where a value in cycles is converted. Everything else about a line
is read before and without it (`ofLine_shape`): whether the line is accepted, at what time, as what kind
and under which tag, or for which cause it is skipped.
-/

namespace LatencyLog

/-! ## Lines -/

/-- An entry without its value. -/
def Entry.shape (e : Entry) : TimeOfDay × EventKind × String := (e.time, e.kind, e.tag)

theorem classify_shape (f f' : Frequency) (fields : Fields) :
    (Fields.classify f fields).map Entry.shape = (Fields.classify f' fields).map Entry.shape := by
  unfold Fields.classify
  cases EventKind.ofLabel? fields.kindLabel with
  | none => rfl
  | some kind => cases TimeOfDay.read? fields.timestamp.toList <;> rfl

/-- **At any two frequencies a line reads the same, but for its value.** -/
theorem ofLine_shape (f f' : Frequency) (line : List Char) :
    (Entry.ofLine f line).map Entry.shape = (Entry.ofLine f' line).map Entry.shape := by
  unfold Entry.ofLine
  cases Fields.read line with
  | error d => rfl
  | ok fields => exact classify_shape f f' fields

namespace Store

theorem addLine_outcome (s : Store) (line : List Char) :
    (s.addLine line).2 = ((Entry.ofLine s.frequency line).map Entry.shape).map fun _ => () := by
  cases h : Entry.ofLine s.frequency line with
  | ok e => rw [addLine_ok h]; rfl
  | error d => rw [addLine_error h]; rfl

theorem addLine_outcome_eq (s s' : Store) (line : List Char) :
    (s.addLine line).2 = (s'.addLine line).2 := by
  rw [addLine_outcome, addLine_outcome, ofLine_shape s.frequency s'.frequency]

theorem addLine_of_discarded {s : Store} {line : List Char} {d : Discard}
    (h : (s.addLine line).2 = .error d) :
    (s.addLine line).1 = { s with tally := s.tally.countLine.countDiscard d } := by
  cases hread : Entry.ofLine s.frequency line with
  | ok e =>
    rw [addLine_ok hread] at h
    cases h
  | error d' =>
    rw [addLine_error hread] at h ⊢
    cases h
    rfl

end Store

/-- The value of a counter reading is not converted, so nothing of it depends on the frequency. -/
theorem record?_ttt (f f' : Frequency) (a : Arrival) : a.record? f .ttt = a.record? f' .ttt := by
  cases a with
  | entry e => rfl
  | line text =>
    rw [Arrival.record?, Arrival.record?, Arrival.read, Arrival.read, Entry.ofLine, Entry.ofLine]
    cases Fields.read text with
    | error d => rfl
    | ok fields =>
      rw [Except.bind, Except.bind, Fields.classify, Fields.classify]
      cases EventKind.ofLabel? fields.kindLabel with
      | none => rfl
      | some kind =>
        cases TimeOfDay.read? fields.timestamp.toList with
        | none => rfl
        -- A duration is converted and is not of this kind; a reading is of this kind and stays.
        | some time => cases kind <;> rfl

theorem accepted_ttt (f f' : Frequency) (as : List Arrival) :
    accepted f .ttt as = accepted f' .ttt as :=
  List.filterMap_congr fun a _ => record?_ttt f f' a

/-! ## Reports -/

theorem hops_eq_of_ttt_eq {f f' : Frequency} (topology : Topology) {set set' : RecordSet}
    (h : set.ttt = set'.ttt) :
    (analyze ⟨f, topology⟩ set).hops = (analyze ⟨f', topology⟩ set').hops ∧
      (analyze ⟨f, topology⟩ set).tttRecords = (analyze ⟨f', topology⟩ set').tttRecords := by
  obtain ⟨_, ttt, _⟩ := set
  obtain ⟨_, ttt', _⟩ := set'
  obtain rfl : ttt = ttt' := h
  exact ⟨rfl, rfl⟩

theorem rdtsc_eq_of_rdtsc_eq (config config' : Config) {set set' : RecordSet}
    (h : set.rdtsc = set'.rdtsc) :
    (analyze config set).rdtsc = (analyze config' set').rdtsc ∧
      (analyze config set).rdtscRecords = (analyze config' set').rdtscRecords := by
  obtain ⟨rdtsc, _, _⟩ := set
  obtain ⟨rdtsc', _, _⟩ := set'
  obtain rfl : rdtsc = rdtsc' := h
  exact ⟨rfl, rfl⟩

theorem stream_run_eq_of_accepted_eq {f f' : Frequency} {kind : EventKind} {steps steps' : List Step}
    (h : accepted f kind (arrivals steps) = accepted f' kind (arrivals steps')) :
    ((Store.empty f).run steps).finish.stream kind =
      ((Store.empty f').run steps').finish.stream kind := by
  rw [Store.stream_run_empty, Store.stream_run_empty, h]

/-- **The halves of a report are independent.** What is said about hops depends on the accepted
counter readings and the topology, what is said about tags on the accepted durations. Whether a line is
accepted depends on the line, and one that is not leaves nothing behind but its counters. -/
theorem report_halves_independent :
    (∀ (f f' : Frequency) (topology : Topology) (steps steps' : List Step),
      accepted f .ttt (arrivals steps) = accepted f' .ttt (arrivals steps') →
      let report := analyze ⟨f, topology⟩ ((Store.empty f).run steps).finish
      let report' := analyze ⟨f', topology⟩ ((Store.empty f').run steps').finish
      report.hops = report'.hops ∧ report.tttRecords = report'.tttRecords) ∧
    (∀ (f : Frequency) (topology topology' : Topology) (steps steps' : List Step),
      accepted f .rdtsc (arrivals steps) = accepted f .rdtsc (arrivals steps') →
      let report := analyze ⟨f, topology⟩ ((Store.empty f).run steps).finish
      let report' := analyze ⟨f, topology'⟩ ((Store.empty f).run steps').finish
      report.rdtsc = report'.rdtsc ∧ report.rdtscRecords = report'.rdtscRecords) ∧
    (∀ (f f' : Frequency) (as : List Arrival), accepted f .ttt as = accepted f' .ttt as) ∧
    (∀ (s s' : Store) (line : List Char), (s.addLine line).2 = (s'.addLine line).2) ∧
    ∀ (s : Store) (line : List Char) (d : Discard), (s.addLine line).2 = .error d →
      (s.addLine line).1 = { s with tally := s.tally.countLine.countDiscard d } := by
  refine ⟨?_, ?_, accepted_ttt, Store.addLine_outcome_eq, ?_⟩
  · intro f f' topology steps steps' h
    exact hops_eq_of_ttt_eq topology (stream_run_eq_of_accepted_eq h)
  · intro f topology topology' steps steps' h
    exact rdtsc_eq_of_rdtsc_eq ⟨f, topology⟩ ⟨f, topology'⟩ (stream_run_eq_of_accepted_eq h)
  · intro s line d h
    exact Store.addLine_of_discarded h

/-- Two counter readings, and between them a duration and two lines that are skipped. -/
def readingsAmongOthers : List Step :=
  ["10:00:00 TTT in 1", "10:00:00 RDTSC parse 26", "10:00:00 TTT in", "10:00:00 COUNT in 3",
    "10:00:01 TTT out 5"].map fun text => .line text.toList

def readingsAlone : List Step :=
  ["10:00:00 TTT in 1", "10:00:01 TTT out 5"].map fun text => .line text.toList

def durationAlone : List Step := [.line "10:00:00 RDTSC parse 26".toList]

def oneGhz : Frequency := ⟨.one, by decide +kernel⟩

theorem report_halves_readingsAmongOthers :
    accepted .default .ttt (arrivals readingsAmongOthers) =
        accepted oneGhz .ttt (arrivals readingsAlone) ∧
      (analyze ⟨.default, .pipeline⟩
          ((Store.empty .default).run readingsAmongOthers).finish).hops =
        (analyze ⟨oneGhz, .pipeline⟩ ((Store.empty oneGhz).run readingsAlone).finish).hops ∧
      accepted .default .rdtsc (arrivals readingsAmongOthers) =
        accepted .default .rdtsc (arrivals durationAlone) ∧
      (analyze ⟨.default, .pipeline⟩
          ((Store.empty .default).run readingsAmongOthers).finish).rdtsc =
        (analyze ⟨.default, []⟩ ((Store.empty .default).run durationAlone).finish).rdtsc := by
  obtain ⟨hhops, hrdtsc, _⟩ := report_halves_independent
  have httt : accepted .default .ttt (arrivals readingsAmongOthers) =
      accepted oneGhz .ttt (arrivals readingsAlone) := by decide +kernel
  have hdurations : accepted .default .rdtsc (arrivals readingsAmongOthers) =
      accepted .default .rdtsc (arrivals durationAlone) := by decide +kernel
  exact ⟨httt, (hhops _ _ .pipeline _ _ httt).1, hdurations, (hrdtsc _ .pipeline [] _ _ hdurations).1⟩

end LatencyLog
