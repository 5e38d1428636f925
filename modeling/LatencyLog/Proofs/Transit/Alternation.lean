import LatencyLog.Proofs.Transit.Pairing
import Mathlib.Data.List.Chain

/-!
# Where destinations do not follow each other

Taking the event just before for the last source goes wrong at a destination behind a destination, and
nowhere else. So where no two destinations are neighbours among the events of a hop (`Alternates`), its
transits are the pairings of destinations with the last source before them (`transits_of_alternates`).

Sources may repeat as they like: the last event before a destination is then still the last source. And a
destination may be the first event of all. It has no event before it, which is as little as it has a source,
so it completes nothing and is paired with nothing.
-/

namespace LatencyLog.Hop

variable {hop : Hop} {earlier later stream : List Record} {event before source : Record}

/-! ## Streams -/

/-- Among the events of a hop no destination directly follows another. -/
def Alternates (hop : Hop) (stream : List Record) : Prop :=
  (hop.select stream).IsChain fun r s => ¬ (r.tag = hop.destination ∧ s.tag = hop.destination)

instance (hop : Hop) (stream : List Record) : Decidable (hop.Alternates stream) :=
  inferInstanceAs (Decidable (List.IsChain _ _))

theorem select_append_cons_of_destination (htag : event.tag = hop.destination)
    (earlier later : List Record) :
    hop.select (earlier ++ event :: later) = hop.select earlier ++ event :: hop.select later := by
  have hselects : hop.selects event.tag = true := selects_iff.mpr (Or.inr htag)
  unfold select
  rw [List.filter_append, List.filter_cons]
  exact congrArg _ (if_pos hselects)

/-- **Before a destination comes a source**, or no event of the hop at all. -/
theorem Alternates.source_of_latest? (h : hop.Alternates (earlier ++ event :: later))
    (htag : event.tag = hop.destination) (hbefore : hop.latest? earlier = some before) :
    before.tag = hop.source := by
  obtain ⟨front, hfront⟩ := List.getLast?_eq_some_iff.mp hbefore
  rw [Alternates, select_append_cons_of_destination htag, hfront, List.append_assoc,
    List.singleton_append] at h
  have hneighbours := (List.isChain_append_cons_cons.mp h).2.1
  have hmem : before ∈ hop.select earlier := by
    rw [hfront]
    exact List.mem_append_right front (List.mem_singleton_self before)
  have hselects := selects_iff.mp (List.mem_filter.mp hmem).2
  exact hselects.resolve_right fun hdestination => hneighbours ⟨hdestination, htag⟩

/-! ## Both ways of measuring -/

/-- A pairing is what a transit is, with the last source in the place of the last event. -/
theorem pairing?_eq_bind (hop : Hop) (earlier : List Record) (event : Record) :
    hop.pairing? earlier event =
      (hop.latestSource? earlier).bind fun source => hop.transit? source.value event := by
  simp only [pairing?, transit?_eq_ite, Binary64.zero_lt_sub]
  by_cases htag : event.tag = hop.destination
  · simp only [htag, if_true, true_and]
  · simp only [htag, if_false, false_and]
    exact (Option.bind_fun_none _).symm

theorem pairing?_eq_some_iff {p : Point} :
    hop.pairing? earlier event = some p ↔ event.tag = hop.destination ∧
      ∃ source, hop.latestSource? earlier = some source ∧
        Binary64.zero.lt (event.value - source.value) = true ∧
        p = ⟨event.time, event.value - source.value⟩ := by
  rw [pairing?_eq_bind, Option.bind_eq_some_iff]
  simp only [transit?_eq_some_iff]
  constructor
  · rintro ⟨source, hsource, htag, hpos, rfl⟩
    exact ⟨htag, source, hsource, hpos, rfl⟩
  · rintro ⟨htag, source, hsource, hpos, rfl⟩
    exact ⟨source, hsource, htag, hpos, rfl⟩

/-- Without any event of the hop there is none at the source. -/
theorem latestSource?_of_latest?_none (h : hop.latest? earlier = none) :
    hop.latestSource? earlier = none := by
  have hnil : hop.select earlier = [] := List.getLast?_eq_none_iff.mp h
  rw [latestSource?, ← filter_source_select, hnil]
  rfl

theorem Alternates.completed?_eq (h : hop.Alternates (earlier ++ event :: later)) :
    hop.completed? earlier event = hop.pairing? earlier event := by
  rw [pairing?_eq_bind, completed?]
  cases hbefore : hop.latest? earlier with
  | none => rw [latestSource?_of_latest?_none hbefore]
  | some before =>
    by_cases htag : event.tag = hop.destination
    · rw [latestSource?_of_latest? hbefore (h.source_of_latest? htag hbefore)]
    · -- Away from the destination nothing is measured from any reading.
      have hnone : ∀ reading, hop.transit? reading event = none := by
        intro reading
        rw [transit?_eq_ite, if_neg fun hand => htag hand.1]
      simp only [hnone, Option.bind_fun_none]

/-- **Where no destination directly follows another, the transits of a hop are its pairings.** Each
destination with a source before it gives the difference to the last one, if that is positive, in the order
of the stream; any other event gives nothing. -/
theorem transits_of_alternates (hop : Hop) (stream : List Record) (h : hop.Alternates stream) :
    hop.transits stream = hop.pairings stream ∧
      ∀ earlier event p, hop.pairing? earlier event = some p ↔ event.tag = hop.destination ∧
        ∃ source, hop.latestSource? earlier = some source ∧
          Binary64.zero.lt (event.value - source.value) = true ∧
          p = ⟨event.time, event.value - source.value⟩ := by
  refine ⟨?_, fun earlier event p => pairing?_eq_some_iff⟩
  rw [transits_eq_eachAfter, pairings]
  refine eachAfter_congr fun earlier event later hstream => ?_
  rw [hstream] at h
  exact h.completed?_eq

/-- A destination before any source, a burst of sources, and an event elsewhere. -/
def sourcesInBursts : List Record :=
  [readingAt 0 "out" 3, readingAt 1 "in" 10, readingAt 2 "in" 12, readingAt 3 "elsewhere" 1,
    readingAt 4 "out" 17, readingAt 5 "in" 20, readingAt 6 "out" 19]

theorem transits_of_alternates_sourcesInBursts :
    (Hop.mk "in" "out").Alternates sourcesInBursts ∧
      (Hop.mk "in" "out").transits sourcesInBursts = (Hop.mk "in" "out").pairings sourcesInBursts ∧
      (Hop.mk "in" "out").pairings sourcesInBursts = [⟨(readingAt 4 "out" 17).time, .ofNat 5⟩] := by
  have halternates : (Hop.mk "in" "out").Alternates sourcesInBursts := by decide +kernel
  have hpairings : (Hop.mk "in" "out").pairings sourcesInBursts =
      [⟨(readingAt 4 "out" 17).time, .ofNat 5⟩] := by decide +kernel
  exact ⟨halternates, (transits_of_alternates _ _ halternates).1, hpairings⟩

end LatencyLog.Hop
