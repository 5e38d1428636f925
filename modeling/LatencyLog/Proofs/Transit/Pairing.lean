import LatencyLog.Proofs.Binary64.Comparison
import LatencyLog.Proofs.Transit.Neighbours

/-!
# Transits against pairings

To measure a hop one would pair each event at the destination with the last event at the source
(`pairings`). `Hop.transits` compares with the event just before instead. As long as that one is at the
source it is the last one at the source, and there is no difference: a burst of sources does no harm. In
a burst of destinations there is one, and it goes both ways. A transit can be lost, and a transit can be
found that no pairing has, since the destination before may stand where no source was yet, or may read
less than the last source does (`transits_arrivalsAstray`).

The second cannot happen unless the destination before was such a one. An event *anchors* what follows
it if it is at the source, or reads at least as much as the last event there: then what reads more than
the event reads more than that source too. Nothing reads at least as much as a source without a number,
so no destination behind one anchors. Transits that are no pairings come directly after a destination
that does not anchor (`strays`), and there are no more of them than of these
(`transits_against_pairings`).
-/

namespace LatencyLog.Hop

variable {hop : Hop} {earlier : List Record} {event before source : Record}

/-! ## Pairings -/

/-- The last event at the source. -/
def latestSource? (hop : Hop) (earlier : List Record) : Option Record :=
  (earlier.filter fun r => decide (r.tag = hop.source)).getLast?

/-- An event at the destination, paired with the last event at the source if it reads more. -/
def pairing? (hop : Hop) (earlier : List Record) (event : Record) : Option Point :=
  if event.tag = hop.destination then
    (hop.latestSource? earlier).bind fun source =>
      if source.value.lt event.value then some ⟨event.time, event.value - source.value⟩ else none
  else none

def pairings (hop : Hop) (stream : List Record) : List Point := eachAfter hop.pairing? stream

theorem isSome_pairing? (htag : event.tag = hop.destination)
    (hsource : hop.latestSource? earlier = some source)
    (hlt : source.value.lt event.value = true) : (hop.pairing? earlier event).isSome = true := by
  rw [pairing?, if_pos htag, hsource, Option.bind_some, if_pos hlt]
  rfl

/-! ## Anchors -/

/-- An event, seen with those before it, is at the source or reads at least as much as the last event
there. -/
def anchors (hop : Hop) (earlier : List Record) (event : Record) : Bool :=
  decide (event.tag = hop.source) ||
    (hop.latestSource? earlier).any fun source => source.value.le event.value

/-- An event at the destination that comes directly after one that does not anchor it. -/
def stray? (hop : Hop) (earlier : List Record) (event : Record) : Option Record :=
  (hop.latest? earlier).bind fun before =>
    if event.tag = hop.destination ∧ hop.anchors earlier before = false then some event else none

def strays (hop : Hop) (stream : List Record) : List Record := eachAfter hop.stray? stream

theorem isSome_stray? (hbefore : hop.latest? earlier = some before)
    (htag : event.tag = hop.destination)
    (hanchor : hop.anchors earlier before = false) : (hop.stray? earlier event).isSome = true := by
  rw [stray?, hbefore, Option.bind_some, if_pos ⟨htag, hanchor⟩]
  rfl

/-- Events at the source are events of the hop. -/
theorem filter_source_select (hop : Hop) (earlier : List Record) :
    (hop.select earlier).filter (fun r => decide (r.tag = hop.source)) =
      earlier.filter fun r => decide (r.tag = hop.source) := by
  unfold select
  rw [List.filter_filter]
  refine List.filter_congr fun r _ => ?_
  by_cases h : r.tag = hop.source
  · simp [h, selects]
  · simp [h]

/-- The last event of the hop, if it is at the source, is the last one at the source. -/
theorem latestSource?_of_latest? (hbefore : hop.latest? earlier = some before)
    (htag : before.tag = hop.source) : hop.latestSource? earlier = some before := by
  obtain ⟨front, hfront⟩ := List.getLast?_eq_some_iff.mp hbefore
  rw [latestSource?, ← filter_source_select, hfront, List.filter_append]
  simp [htag]

/-- **What reads more than an anchor reads more than the last source.** -/
theorem exists_source_lt (hbefore : hop.latest? earlier = some before)
    (hanchor : hop.anchors earlier before = true)
    (hlt : before.value.lt event.value = true) :
    ∃ source, hop.latestSource? earlier = some source ∧ source.value.lt event.value = true := by
  rcases Bool.or_eq_true_iff.mp hanchor with htag | hle
  · exact ⟨before, latestSource?_of_latest? hbefore (of_decide_eq_true htag), hlt⟩
  · obtain ⟨source, hsource, hle⟩ := (Option.any_eq_true _ _).mp hle
    exact ⟨source, hsource, Binary64.lt_of_le_of_lt hle hlt⟩

/-! ## Where a transit is no pairing -/

/-- A transit is at an event at the destination that reads more than the event of the hop before it. -/
theorem completed?_eq_some_iff_lt {p : Point} :
    hop.completed? earlier event = some p ↔ ∃ before, hop.latest? earlier = some before ∧
      event.tag = hop.destination ∧ before.value.lt event.value = true ∧
        p = ⟨event.time, event.value - before.value⟩ := by
  simp only [completed?_eq_some_iff, Binary64.zero_lt_sub]

theorem pairing_or_stray (h : (hop.completed? earlier event).isSome = true) :
    (hop.pairing? earlier event).isSome = true ∨ (hop.stray? earlier event).isSome = true := by
  obtain ⟨p, hp⟩ := Option.isSome_iff_exists.mp h
  obtain ⟨before, hbefore, htag, hlt, _⟩ := completed?_eq_some_iff_lt.mp hp
  cases hanchor : hop.anchors earlier before with
  | true =>
    obtain ⟨source, hsource, hsourcelt⟩ := exists_source_lt hbefore hanchor hlt
    exact Or.inl (isSome_pairing? htag hsource hsourcelt)
  | false => exact Or.inr (isSome_stray? hbefore htag hanchor)

theorem length_transits_le (hop : Hop) (stream : List Record) :
    (hop.transits stream).length ≤ (hop.pairings stream).length + (hop.strays stream).length := by
  rw [transits_eq_eachAfter]
  exact length_eachAfter_le_add (fun earlier event => pairing_or_stray) stream

/-- The first event of a hop completes nothing. -/
theorem length_transits_lt_select {stream : List Record} (h : hop.select stream ≠ []) :
    (hop.transits stream).length < (hop.select stream).length := by
  obtain ⟨n, hn⟩ := Nat.exists_eq_add_one_of_ne_zero (mt List.eq_nil_of_length_eq_zero h)
  rw [transits_eq_filterMap_transitAt?, hn, List.range_succ_eq_map, List.filterMap_cons_none rfl]
  calc _ ≤ ((List.range n).map Nat.succ).length := List.length_filterMap_le _ _
    _ = n := by rw [List.length_map, List.length_range]
    _ < n + 1 := Nat.lt_succ_self n

/-- Without an event at the source, the events of a hop are those at its destination. -/
theorem length_select_of_no_source {stream : List Record}
    (h : ∀ r ∈ stream, r.tag ≠ hop.source) :
    (hop.select stream).length = stream.countP fun r => decide (r.tag = hop.destination) := by
  rw [List.countP_eq_length_filter]
  congr 1
  refine List.filter_congr fun r hr => ?_
  simp [selects, h r hr]

/-- **Transits are pairings, but for those directly after an event that does not anchor.** A transit is
at a destination that reads more than the event of the hop before it, and if that one anchors, more than
the last source. There are no more transits than pairings and strays, and if there are destinations and
no source, fewer than destinations. -/
theorem transits_against_pairings (hop : Hop) (stream : List Record) :
    (∀ p ∈ hop.transits stream, ∃ earlier event later before,
      stream = earlier ++ event :: later ∧ event.tag = hop.destination ∧
      hop.latest? earlier = some before ∧ before.value.lt event.value = true ∧
      p = ⟨event.time, event.value - before.value⟩ ∧
      (hop.anchors earlier before = true → ∃ source, hop.latestSource? earlier = some source ∧
        source.value.lt event.value = true)) ∧
    (hop.transits stream).length ≤ (hop.pairings stream).length + (hop.strays stream).length ∧
    ((∀ r ∈ stream, r.tag ≠ hop.source) → (∃ r ∈ stream, r.tag = hop.destination) →
      (hop.transits stream).length < stream.countP fun r => decide (r.tag = hop.destination)) := by
  refine ⟨?_, length_transits_le hop stream, ?_⟩
  · intro p hp
    rw [transits_eq_eachAfter] at hp
    obtain ⟨earlier, event, later, hstream, hcompleted⟩ := mem_eachAfter_iff.mp hp
    obtain ⟨before, hbefore, htag, hlt, hpoint⟩ := completed?_eq_some_iff_lt.mp hcompleted
    refine ⟨earlier, event, later, before, hstream, htag, hbefore, hlt, hpoint, ?_⟩
    intro hanchor
    exact exists_source_lt hbefore hanchor hlt
  · rintro hsource ⟨r, hr, htag⟩
    have hmem : r ∈ hop.select stream := List.mem_filter.mpr ⟨hr, by simp [selects, htag]⟩
    rw [← length_select_of_no_source hsource]
    exact length_transits_lt_select (List.ne_nil_of_mem hmem)

/-- Destinations before any source, then a source, and destinations that read less than it does. -/
def arrivalsAstray : List Record :=
  [readingAt 0 "out" 1, readingAt 1 "out" 2, readingAt 2 "in" 10, readingAt 3 "out" 5,
    readingAt 4 "out" 7]

/-- At a transit behind a source, and at a stream without one. -/
theorem transits_against_pairings_throughAndBack :
    transitThrough ∈ (Hop.mk "in" "out").transits throughAndBack ∧
      (∃ earlier event later before,
        throughAndBack = earlier ++ event :: later ∧ event.tag = "out" ∧
        (Hop.mk "in" "out").latest? earlier = some before ∧
        before.value.lt event.value = true ∧
        transitThrough = ⟨event.time, event.value - before.value⟩ ∧
        ((Hop.mk "in" "out").anchors earlier before = true →
          ∃ source, (Hop.mk "in" "out").latestSource? earlier = some source ∧
            source.value.lt event.value = true)) ∧
      (∀ r ∈ arrivalsAstray.take 2, r.tag ≠ "in") ∧ (∃ r ∈ arrivalsAstray.take 2, r.tag = "out") ∧
      ((Hop.mk "in" "out").transits (arrivalsAstray.take 2)).length <
        (arrivalsAstray.take 2).countP fun r => decide (r.tag = "out") := by
  have hmem : transitThrough ∈ (Hop.mk "in" "out").transits throughAndBack := by decide +kernel
  have hsource : ∀ r ∈ arrivalsAstray.take 2, r.tag ≠ "in" := by decide +kernel
  have hdestination : ∃ r ∈ arrivalsAstray.take 2, r.tag = "out" := by decide +kernel
  obtain ⟨htransit, _, _⟩ := transits_against_pairings ⟨"in", "out"⟩ throughAndBack
  obtain ⟨_, _, hfew⟩ := transits_against_pairings ⟨"in", "out"⟩ (arrivalsAstray.take 2)
  exact ⟨hmem, htransit transitThrough hmem, hsource, hdestination, hfew hsource hdestination⟩

/-- Where nothing is paired nothing reads more than the last source. -/
theorem not_source_lt_of_pairings_eq_nil {stream : List Record}
    (h : hop.pairings stream = []) :
    ¬ ∃ earlier event later source, stream = earlier ++ event :: later ∧
      event.tag = hop.destination ∧ hop.latestSource? earlier = some source ∧
      source.value.lt event.value = true := by
  rintro ⟨earlier, event, later, source, hstream, htag, hsource, hlt⟩
  obtain ⟨p, hp⟩ := Option.isSome_iff_exists.mp (isSome_pairing? htag hsource hlt)
  have hmem : p ∈ hop.pairings stream := mem_eachAfter_iff.mpr ⟨earlier, event, later, hstream, hp⟩
  rw [h] at hmem
  exact List.not_mem_nil hmem

/-- **A burst at the destination can make transits that no pairing has**, without any source before
them, and after a source that reads more. -/
theorem transits_arrivalsAstray :
    "in" ≠ "out" ∧ (arrivalsAstray.Pairwise fun r s => r.time ≤ s.time) ∧
      (Hop.mk "in" "out").transits arrivalsAstray =
        [⟨(readingAt 1 "out" 2).time, .ofNat 1⟩, ⟨(readingAt 4 "out" 7).time, .ofNat 2⟩] ∧
      (¬ ∃ earlier event later source, arrivalsAstray = earlier ++ event :: later ∧
        event.tag = "out" ∧ (Hop.mk "in" "out").latestSource? earlier = some source ∧
        source.value.lt event.value = true) ∧
      (Hop.mk "in" "out").pairings arrivalsAstray = [] ∧
      (∀ r ∈ arrivalsAstray.take 2, r.tag ≠ "in") ∧
      (Hop.mk "in" "out").transits (arrivalsAstray.take 2) =
        [⟨(readingAt 1 "out" 2).time, .ofNat 1⟩] := by
  have hpairings : (Hop.mk "in" "out").pairings arrivalsAstray = [] := by decide +kernel
  refine ⟨by decide, by decide +kernel, by decide +kernel, ?_, hpairings, by decide +kernel,
    by decide +kernel⟩
  exact not_source_lt_of_pairings_eq_nil hpairings

end LatencyLog.Hop
