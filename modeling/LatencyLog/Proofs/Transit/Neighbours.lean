import LatencyLog.Proofs.EachAfter
import LatencyLog.Transit

/-!
# A transit is a difference of neighbours

`Hop.transits` goes through the events of a hop once, with the last reading in hand. What it finds is
said here by positions: the transit at a position is a matter of the event there and of the event one
position before (`transitAt?`), and the transits are what the positions give, in order
(`transits_by_position`).

The point where a pass like this goes wrong is what it carries along. Had it kept the reading of an
event only when the event completes a transit, or only at a source, most short logs would show nothing
of it. So the invariant is about that reading: *behind any events it is the reading of the last of
them* (`reading_observe_foldl`), whatever became of the event. All else is a step that adds one event.
-/

namespace LatencyLog.Hop

/-! ## One event more -/

/-- The last event of the hop. -/
def latest? (hop : Hop) (earlier : List Record) : Option Record := (hop.select earlier).getLast?

/-- The transit that an event completes, seen after the stream before it. -/
def completed? (hop : Hop) (earlier : List Record) (event : Record) : Option Point :=
  (hop.latest? earlier).bind fun before => hop.transit? before.value event

theorem transit?_eq_ite (hop : Hop) (before : Binary64) (event : Record) :
    hop.transit? before event =
      if event.tag = hop.destination ∧ Binary64.zero.lt (event.value - before) = true then
        some ⟨event.time, event.value - before⟩
      else none := by
  simp only [transit?, Bool.and_eq_true, decide_eq_true_eq, and_comm]

theorem transit?_eq_some_iff {hop : Hop} {before : Binary64} {event : Record} {p : Point} :
    hop.transit? before event = some p ↔
      event.tag = hop.destination ∧ Binary64.zero.lt (event.value - before) = true ∧
        p = ⟨event.time, event.value - before⟩ := by
  rw [transit?_eq_ite, Option.ite_none_right_eq_some, Option.some.injEq, and_assoc]
  constructor
  · rintro ⟨htag, hpos, rfl⟩
    exact ⟨htag, hpos, rfl⟩
  · rintro ⟨htag, hpos, rfl⟩
    exact ⟨htag, hpos, rfl⟩

theorem selects_iff {hop : Hop} {tag : String} :
    hop.selects tag = true ↔ tag = hop.source ∨ tag = hop.destination := by
  simp [selects]

theorem select_concat_of_selects {hop : Hop} {event : Record} (h : hop.selects event.tag = true)
    (stream : List Record) : hop.select (stream ++ [event]) = hop.select stream ++ [event] := by
  unfold select
  rw [List.filter_append]
  simp [h]

theorem select_concat_of_not_selects {hop : Hop} {event : Record}
    (h : ¬ hop.selects event.tag = true) (stream : List Record) :
    hop.select (stream ++ [event]) = hop.select stream := by
  unfold select
  rw [List.filter_append]
  simp [h]

/-- Nothing is completed away from the destination. -/
theorem completed?_of_not_selects {hop : Hop} {event : Record} (h : ¬ hop.selects event.tag = true)
    (earlier : List Record) : hop.completed? earlier event = none := by
  refine Option.eq_none_iff_forall_ne_some.mpr fun p hp => ?_
  obtain ⟨before, _, htransit⟩ := Option.bind_eq_some_iff.mp hp
  exact h (selects_iff.mpr (Or.inr (transit?_eq_some_iff.mp htransit).1))

/-! ## The pass -/

theorem transits_observe (hop : Hop) (watch : Watch) (event : Record) :
    (hop.observe watch event).transits.toList =
      watch.transits.toList ++
        (watch.reading.bind fun before => hop.transit? before event).toList := by
  unfold observe
  cases watch.reading.bind fun before => hop.transit? before event with
  | none => exact (List.append_nil _).symm
  | some p => exact Array.toList_push

/-- **The reading in hand is that of the last event**, whether or not that one completed a transit. -/
theorem reading_observe_foldl (hop : Hop) (events : List Record) :
    (events.foldl hop.observe .start).reading = events.getLast?.map Record.value := by
  induction events using List.reverseRecOn with
  | nil => rfl
  | append_singleton events event _ =>
    rw [List.foldl_concat, List.getLast?_concat]
    rfl

/-- **One more event adds the transit that it completes.** -/
theorem transits_concat (hop : Hop) (stream : List Record) (event : Record) :
    hop.transits (stream ++ [event]) =
      hop.transits stream ++ (hop.completed? stream event).toList := by
  by_cases h : hop.selects event.tag = true
  · unfold transits
    rw [select_concat_of_selects h, List.foldl_concat, transits_observe, reading_observe_foldl,
      Option.bind_map]
    rfl
  · rw [completed?_of_not_selects h, transits, select_concat_of_not_selects h]
    exact (List.append_nil _).symm

theorem transits_eq_eachAfter (hop : Hop) (stream : List Record) :
    hop.transits stream = eachAfter hop.completed? stream :=
  eq_eachAfter rfl (transits_concat hop) stream

/-! ## Positions -/

/-- The transit at a position among the events of a hop. There has to be an event one position
before, and there is none before the first. -/
def transitAt? (hop : Hop) (events : List Record) : (position : Nat) → Option Point
  | 0 => none
  | i + 1 =>
    match events[i]?, events[i + 1]? with
    | some before, some event =>
      if event.tag = hop.destination ∧ Binary64.zero.lt (event.value - before.value) = true then
        some ⟨event.time, event.value - before.value⟩
      else none
    | _, _ => none

theorem select_select (hop : Hop) (stream : List Record) :
    hop.select (hop.select stream) = hop.select stream := by
  unfold select
  rw [List.filter_filter]
  simp only [Bool.and_self]

/-- The events of a stream are a stream with the same transits. -/
theorem transits_select (hop : Hop) (stream : List Record) :
    hop.transits (hop.select stream) = hop.transits stream := by
  rw [transits, select_select]
  rfl

theorem transits_congr {hop : Hop} {stream stream' : List Record}
    (h : hop.select stream = hop.select stream') : hop.transits stream = hop.transits stream' := by
  rw [← transits_select, h, transits_select]

/-- Where every record is an event of the hop, the last one before a position is one position back. -/
theorem latest?_take {hop : Hop} {events : List Record} (hall : hop.select events = events) (i : Nat)
    (hi : i < events.length) : hop.latest? (events.take (i + 1)) = events[i]? := by
  have htake : hop.select (events.take (i + 1)) = events.take (i + 1) := by
    refine List.filter_eq_self.mpr fun r hr => ?_
    exact List.filter_eq_self.mp hall r (List.mem_of_mem_take hr)
  rw [latest?, htake, List.getLast?_take, if_neg (Nat.succ_ne_zero i), Nat.add_sub_cancel,
    List.getElem?_eq_getElem hi, Option.some_or]

theorem completed?_take {hop : Hop} {events : List Record} (hall : hop.select events = events)
    {i : Nat} (hi : i < events.length) :
    (events[i]?.bind fun event => hop.completed? (events.take i) event) =
      hop.transitAt? events i := by
  cases i with
  | zero =>
    rw [List.getElem?_eq_getElem hi]
    rfl
  | succ i =>
    have hlt : i < events.length := Nat.lt_of_succ_lt hi
    have hbefore : events[i]? = some events[i] := List.getElem?_eq_getElem hlt
    have hevent : events[i + 1]? = some events[i + 1] := List.getElem?_eq_getElem hi
    rw [hevent, Option.bind_some, completed?, latest?_take hall i hlt, hbefore, Option.bind_some,
      transit?_eq_ite]
    simp only [transitAt?, hbefore, hevent]

theorem transits_eq_filterMap_transitAt? (hop : Hop) (stream : List Record) :
    hop.transits stream =
      (List.range (hop.select stream).length).filterMap (hop.transitAt? (hop.select stream)) := by
  rw [← transits_select, transits_eq_eachAfter]
  refine List.filterMap_congr fun i hi => ?_
  exact completed?_take (select_select hop stream) (List.mem_range.mp hi)

/-! ## What follows for the stream -/

theorem completed?_eq_some_iff {hop : Hop} {earlier : List Record} {event : Record} {p : Point} :
    hop.completed? earlier event = some p ↔ ∃ before, hop.latest? earlier = some before ∧
      event.tag = hop.destination ∧ Binary64.zero.lt (event.value - before.value) = true ∧
        p = ⟨event.time, event.value - before.value⟩ := by
  rw [completed?, Option.bind_eq_some_iff]
  simp only [transit?_eq_some_iff]

theorem lt_of_mem_transits {hop : Hop} {stream : List Record} {p : Point}
    (hp : p ∈ hop.transits stream) : Binary64.zero.lt p.value = true := by
  rw [transits_eq_eachAfter] at hp
  obtain ⟨earlier, event, later, _, hcompleted⟩ := mem_eachAfter_iff.mp hp
  obtain ⟨before, _, _, hpos, rfl⟩ := completed?_eq_some_iff.mp hcompleted
  exact hpos

/-- Each transit is at an event of its own at the destination, and they come in the order of these. -/
theorem transits_placed (hop : Hop) (stream : List Record) :
    ∃ places : List Nat, places.Pairwise (· < ·) ∧
      List.Forall₂ (fun i p => ∃ event, stream[i]? = some event ∧ event.tag = hop.destination ∧
        p.time = event.time) places (hop.transits stream) := by
  obtain ⟨places, hincreasing, hplaced⟩ := eachAfter_placed hop.completed? stream
  rw [transits_eq_eachAfter]
  refine ⟨places, hincreasing, hplaced.imp fun i p hip => ?_⟩
  obtain ⟨event, hevent, hcompleted⟩ := hip
  obtain ⟨before, _, htag, _, rfl⟩ := completed?_eq_some_iff.mp hcompleted
  exact ⟨event, hevent, htag, rfl⟩

/-- **The transits of a hop are the positive differences of neighbours, at the destination.** Only the
events of the hop count; each transit is at an event of its own, in the order of the stream; all are
positive. A topology has the transits of each of its hops, in its order. -/
theorem transits_by_position (hop : Hop) (stream : List Record) :
    (hop.transits stream =
      (List.range (hop.select stream).length).filterMap (hop.transitAt? (hop.select stream))) ∧
    (∀ stream', hop.select stream' = hop.select stream →
      hop.transits stream' = hop.transits stream) ∧
    (∃ places : List Nat, places.Pairwise (· < ·) ∧
      List.Forall₂ (fun i p => ∃ event, stream[i]? = some event ∧ event.tag = hop.destination ∧
        p.time = event.time) places (hop.transits stream)) ∧
    (∀ p ∈ hop.transits stream, Binary64.zero.lt p.value = true) ∧
    ∀ topology : Topology, List.Forall₂ (fun hop' entry => entry = (hop', hop'.transits stream))
      topology (topology.transits stream) := by
  refine ⟨transits_eq_filterMap_transitAt? hop stream, ?_, transits_placed hop stream, ?_, ?_⟩
  · intro stream' hselect
    rw [← transits_select, hselect, transits_select]
  · intro p hp
    exact lt_of_mem_transits hp
  · intro topology
    exact List.forall₂_map_right_iff.mpr (List.forall₂_same.mpr fun hop' _ => rfl)

/-- A reading a second and so many nanoseconds past half past nine. -/
def readingAt (nano : Nat) (tag : String) (value : Nat) : Record :=
  ⟨⟨9, 30, 1, nano % 1000000000, by decide, by decide, by decide, Nat.mod_lt _ (by decide)⟩,
    tag, .ofNat value⟩

/-- Two ways through a hop, the second one backwards, and an event elsewhere. -/
def throughAndBack : List Record :=
  [readingAt 0 "in" 10, readingAt 1 "elsewhere" 11, readingAt 2 "out" 14, readingAt 3 "in" 20,
    readingAt 4 "out" 12]

def transitThrough : Point := ⟨(readingAt 2 "out" 14).time, .ofNat 4⟩

theorem transits_throughAndBack :
    (Hop.mk "in" "out").select (throughAndBack.eraseIdx 1) =
        (Hop.mk "in" "out").select throughAndBack ∧
      (Hop.mk "in" "out").transits (throughAndBack.eraseIdx 1) =
        (Hop.mk "in" "out").transits throughAndBack ∧
      transitThrough ∈ (Hop.mk "in" "out").transits throughAndBack ∧
      Binary64.zero.lt transitThrough.value = true := by
  obtain ⟨_, hsame, _, hpos, _⟩ := transits_by_position ⟨"in", "out"⟩ throughAndBack
  have hselect : (Hop.mk "in" "out").select (throughAndBack.eraseIdx 1) =
      (Hop.mk "in" "out").select throughAndBack := by decide +kernel
  have hmem : transitThrough ∈ (Hop.mk "in" "out").transits throughAndBack := by decide +kernel
  exact ⟨hselect, hsame _ hselect, hmem, hpos _ hmem⟩

end LatencyLog.Hop
