import LatencyLog.Proofs.Analysis.Sufficiency
import LatencyLog.Proofs.Analysis.ZeroSigns
import LatencyLog.Proofs.Binary64.Comparison
import LatencyLog.Proofs.Store.Tags

/-!
# Lines that change nothing

Two runs are compared, one of which has lines that the other one has not, at any places among the others
(`Interspersed`). Each of these lines leaves a record, and that record goes wherever records go: it is
compared with others for repetitions, it is sorted with them, it can stand between any two of them. So it is
not clear at once that it cannot come between the records that a number in the report is made of.

It cannot, as what a series is made of is picked from the stream by a test, and the test could as well have
been made on arrival (`filter_stream_eq`). For that it must not tell a record from its repetition; a test of
tags does not, nor does a test for positive finite values, which neither zero passes. What fails the test
might then as well not have arrived.
-/

namespace LatencyLog

/-! ## More in a list -/

/-- The second list is the first one with extra elements, at any places. -/
inductive Interspersed {α : Type} (extra : α → Prop) : List α → List α → Prop where
  | nil : Interspersed extra [] []
  | keep (x : α) {xs ys : List α} : Interspersed extra xs ys → Interspersed extra (x :: xs) (x :: ys)
  | add {x : α} {xs ys : List α} : extra x → Interspersed extra xs ys → Interspersed extra xs (x :: ys)

namespace Interspersed

variable {α β : Type} {extra : α → Prop} {xs ys : List α}

theorem sublist (h : Interspersed extra xs ys) : xs.Sublist ys := by
  induction h with
  | nil => exact List.Sublist.refl _
  | keep x _ ih => exact ih.cons_cons x
  | add _ _ ih => exact ih.cons _

/-- A function that is not defined on the extra elements does not see them. -/
theorem filterMap_eq {g : α → Option β} (h : Interspersed extra xs ys)
    (hextra : ∀ x, extra x → g x = none) : xs.filterMap g = ys.filterMap g := by
  induction h with
  | nil => rfl
  | keep x _ ih => rw [List.filterMap_cons, List.filterMap_cons, ih]
  | add hx _ ih => rw [List.filterMap_cons_none (hextra _ hx), ih]

end Interspersed

/-! ## Streams with more in them -/

section Streams

variable {f : Frequency} {kind : EventKind} {extra : Arrival → Prop} {p : Record → Bool}

theorem accepted_sublist {as as' : List Arrival} (h : Interspersed extra as as') :
    (accepted f kind as).Sublist (accepted f kind as') := h.sublist.filterMap _

theorem filter_accepted_eq {as as' : List Arrival} (h : Interspersed extra as as')
    (hextra : ∀ a, extra a → ∃ r ∈ a.record? f kind, p r = false) :
    (accepted f kind as).filter p = (accepted f kind as').filter p := by
  rw [accepted, accepted, List.filter_filterMap, List.filter_filterMap]
  apply h.filterMap_eq
  intro a ha
  -- An arrival leaves one record of a kind at most, and this one fails.
  obtain ⟨r, hr, hfail⟩ := hextra a ha
  rw [Option.mem_def.mp hr]
  simp [hfail]

/-- **What fails a test is nothing to what passes it.** The test must not tell a record from its
repetitions: one of them would be dropped, and it is not said which. -/
theorem filter_stream_eq {steps steps' : List Step}
    (h : Interspersed extra (arrivals steps) (arrivals steps'))
    (hextra : ∀ a, extra a → ∃ r ∈ a.record? f kind, p r = false)
    (hp : ∀ r s : Record, r.key = s.key → p r = p s) :
    (((Store.empty f).run steps).finish.stream kind).filter p =
      (((Store.empty f).run steps').finish.stream kind).filter p := by
  rw [Store.stream_run_empty, Store.stream_run_empty, RecordSet.filter_normalize hp,
    RecordSet.filter_normalize hp, filter_accepted_eq h hextra]

end Streams

/-! ## Durations of no use -/

theorem Binary64.isFinite_of_place?_eq_none {x : Binary64} (h : x.place? = none) :
    x.isFinite = false := by
  cases x with
  | nan s f => rfl
  | infinity s => cases h
  | finite s m => cases h

theorem Binary64.isUsable_eq_false_iff {x : Binary64} :
    x.isUsable = false ↔ x.isFinite = false ∨ x.le zero = true := by
  rw [isUsable, Bool.and_eq_false_iff]
  constructor
  · rintro (hpos | hfinite)
    · cases hplace : x.place? with
      | none => exact Or.inl (isFinite_of_place?_eq_none hplace)
      | some a =>
        rw [lt_eq_decide place?_zero hplace, decide_eq_false_iff_not] at hpos
        exact Or.inr (le_iff.mpr ⟨a, 0, hplace, place?_zero, Int.not_lt.mp hpos⟩)
    · exact Or.inl hfinite
  · rintro (hfinite | hle)
    · exact Or.inr hfinite
    · refine Or.inl (Bool.eq_false_iff.mpr fun hpos => ?_)
      obtain ⟨a, b, ha, hb, hab⟩ := lt_iff.mp (lt_of_le_of_lt hle hpos)
      rw [ha, Option.some.injEq] at hb
      omega

/-- An accepted duration that is zero, negative, infinite or not a number. -/
def Arrival.IsNoise (f : Frequency) (a : Arrival) : Prop :=
  ∃ r ∈ a.record? f .rdtsc, r.value.isFinite = false ∨ r.value.le .zero = true

instance (f : Frequency) (a : Arrival) : Decidable (a.IsNoise f) :=
  inferInstanceAs (Decidable (∃ r ∈ a.record? f .rdtsc,
    r.value.isFinite = false ∨ r.value.le .zero = true))

namespace Record

def isUsable (r : Record) : Bool := r.value.isUsable

theorem isUsable_of_key_eq {r s : Record} (h : r.key = s.key) : r.isUsable = s.isUsable := by
  have hvalue : valueKey r.value = valueKey s.value := congrArg Key.value h
  rw [isUsable, isUsable, ← isUsable_valueKey r.value, hvalue, isUsable_valueKey]

end Record

theorem usable_stream_eq {f : Frequency} {steps steps' : List Step}
    (h : Interspersed (Arrival.IsNoise f) (arrivals steps) (arrivals steps')) :
    ((Store.empty f).run steps).finish.rdtsc.filter Record.isUsable =
      ((Store.empty f).run steps').finish.rdtsc.filter Record.isUsable := by
  have hnoise : ∀ a, Arrival.IsNoise f a → ∃ r ∈ a.record? f .rdtsc, r.isUsable = false := by
    intro a ha
    obtain ⟨r, hr, huseless⟩ := ha
    exact ⟨r, hr, Binary64.isUsable_eq_false_iff.mpr huseless⟩
  exact filter_stream_eq h hnoise fun r s => Record.isUsable_of_key_eq

/-- What is reported on a tag is made of the usable records of the stream. -/
theorem tagReport_congr {set set' : RecordSet}
    (h : set.rdtsc.filter Record.isUsable = set'.rdtsc.filter Record.isUsable) (tag : String) :
    Analysis.tagReport set tag = Analysis.tagReport set' tag := by
  have husable : ∀ s : RecordSet, Series.usable ((s.rdtscFor tag).map Record.point) =
      ((s.rdtsc.filter Record.isUsable).filter fun r => decide (r.tag = tag)).map Record.point := by
    intro s
    -- The report picks a tag first and usable values then.
    rw [List.filter_comm]
    exact List.filter_map
  refine congrArg (TagReport.mk tag) (summarize_congr ?_ .point)
  rw [husable, husable, h]

theorem tagReport_of_not_mem {set : RecordSet} {tag : String} (h : tag ∉ set.rdtscTags) :
    Analysis.tagReport set tag = ⟨tag, .insufficient 0⟩ := by
  have hnone : set.rdtscFor tag = [] := by
    refine List.filter_eq_nil_iff.mpr fun r hr htag => ?_
    exact h (RecordSet.mem_rdtscTags_iff.mpr ⟨r, hr, of_decide_eq_true htag⟩)
  rw [Analysis.tagReport, hnone]
  exact congrArg (TagReport.mk tag) (Analysis.summarize_nil .point)

/-! ## Readings elsewhere -/

/-- An accepted reading at neither end of any hop. -/
def Arrival.IsElsewhere (config : Config) (a : Arrival) : Prop :=
  ∃ r ∈ a.record? config.frequency .ttt,
    ∀ hop ∈ config.topology, r.tag ≠ hop.source ∧ r.tag ≠ hop.destination

instance (config : Config) (a : Arrival) : Decidable (a.IsElsewhere config) :=
  inferInstanceAs (Decidable (∃ r ∈ a.record? config.frequency .ttt,
    ∀ hop ∈ config.topology, r.tag ≠ hop.source ∧ r.tag ≠ hop.destination))

theorem select_stream_eq {config : Config} {steps steps' : List Step}
    (h : Interspersed (Arrival.IsElsewhere config) (arrivals steps) (arrivals steps')) {hop : Hop}
    (hhop : hop ∈ config.topology) :
    hop.select ((Store.empty config.frequency).run steps).finish.ttt =
      hop.select ((Store.empty config.frequency).run steps').finish.ttt := by
  have helsewhere : ∀ a, Arrival.IsElsewhere config a →
      ∃ r ∈ a.record? config.frequency .ttt, hop.selects r.tag = false := by
    intro a ha
    obtain ⟨r, hr, hends⟩ := ha
    exact ⟨r, hr, by simp [Hop.selects, hends hop hhop]⟩
  refine filter_stream_eq h helsewhere fun r s hkey => ?_
  exact congrArg (fun key => hop.selects key.tag) hkey

theorem isEmpty_ttt_run {f : Frequency} {steps : List Step}
    (h : accepted f .ttt (arrivals steps) ≠ []) :
    ((Store.empty f).run steps).finish.ttt.isEmpty = false := by
  rw [Bool.eq_false_iff]
  intro hempty
  exact h ((stream_eq_nil_iff f steps .ttt).mp (List.isEmpty_iff.mp hempty))

/-- What is reported on hops is made of the readings at their ends, if there is any reading. -/
theorem hopReports_congr {topology : Topology} {set set' : RecordSet}
    (h : ∀ hop ∈ topology, hop.select set.ttt = hop.select set'.ttt)
    (hsome : set.ttt.isEmpty = set'.ttt.isEmpty) :
    Analysis.hopReports topology set = Analysis.hopReports topology set' := by
  rw [Analysis.hopReports_eq_map, Analysis.hopReports_eq_map, hsome]
  split
  · rfl
  · refine List.map_congr_left fun hop hhop => ?_
    rw [Hop.transits_congr (h hop hhop)]

/-! ## Reports -/

section Reports

variable {config : Config} {steps steps' : List Step}

section Noise

variable (h : Interspersed (Arrival.IsNoise config.frequency) (arrivals steps) (arrivals steps'))
  {tag : String}
include h

theorem taggedBy_noise_of_mem
    (htag : tag ∈ (accepted config.frequency .rdtsc (arrivals steps)).map Record.tag) :
    ∃ outcome,
      (analyze config ((Store.empty config.frequency).run steps).finish).taggedBy tag =
        [⟨tag, outcome⟩] ∧
      (analyze config ((Store.empty config.frequency).run steps').finish).taggedBy tag =
        [⟨tag, outcome⟩] := by
  have htag' := ((accepted_sublist h).map Record.tag).subset htag
  refine ⟨(Analysis.tagReport _ tag).outcome, taggedBy_run_of_mem config htag, ?_⟩
  rw [tagReport_congr (usable_stream_eq h)]
  exact taggedBy_run_of_mem config htag'

theorem taggedBy_noise_of_not_mem
    (htag' : tag ∈ (accepted config.frequency .rdtsc (arrivals steps')).map Record.tag)
    (htag : tag ∉ (accepted config.frequency .rdtsc (arrivals steps)).map Record.tag) :
    (analyze config ((Store.empty config.frequency).run steps).finish).taggedBy tag = [] ∧
      (analyze config ((Store.empty config.frequency).run steps').finish).taggedBy tag =
        [⟨tag, .insufficient 0⟩] := by
  have hset : tag ∉ ((Store.empty config.frequency).run steps).finish.rdtscTags :=
    fun hmem => htag (mem_rdtscTags_run_iff.mp hmem)
  constructor
  · rw [taggedBy_analyze, if_neg hset]
  · rw [← tagReport_of_not_mem hset, tagReport_congr (usable_stream_eq h)]
    exact taggedBy_run_of_mem config htag'

end Noise

theorem hops_elsewhere
    (h : Interspersed (Arrival.IsElsewhere config) (arrivals steps) (arrivals steps'))
    (hsome : accepted config.frequency .ttt (arrivals steps) ≠ []) :
    (analyze config ((Store.empty config.frequency).run steps').finish).hops =
      (analyze config ((Store.empty config.frequency).run steps).finish).hops := by
  -- Whether hops are listed at all is asked of the whole stream, so both runs must have a reading.
  have hsome' : accepted config.frequency .ttt (arrivals steps') ≠ [] := by
    intro hnil
    have hsub : (accepted config.frequency .ttt (arrivals steps)).Sublist
        (accepted config.frequency .ttt (arrivals steps')) := accepted_sublist h
    rw [hnil] at hsub
    exact hsome (List.sublist_nil.mp hsub)
  refine hopReports_congr (fun hop hhop => (select_stream_eq h hhop).symm) ?_
  rw [isEmpty_ttt_run hsome, isEmpty_ttt_run hsome']

end Reports

/-- **Noise is inert.** Durations that are zero, negative, infinite or not a number can be added anywhere:
what is reported on a tag stays as it was, and on a tag of which there is nothing else it is reported that
no value is usable. Readings at no end of any hop can be added anywhere: what is reported on hops stays as
it was, if there was a reading at all. -/
theorem noise_inert (config : Config) (steps steps' : List Step) :
    let report := analyze config ((Store.empty config.frequency).run steps).finish
    let report' := analyze config ((Store.empty config.frequency).run steps').finish
    let tags := (accepted config.frequency .rdtsc (arrivals steps)).map Record.tag
    let tags' := (accepted config.frequency .rdtsc (arrivals steps')).map Record.tag
    (Interspersed (Arrival.IsNoise config.frequency) (arrivals steps) (arrivals steps') →
      (∀ tag ∈ tags, ∃ outcome, report.taggedBy tag = [⟨tag, outcome⟩] ∧
        report'.taggedBy tag = [⟨tag, outcome⟩]) ∧
      ∀ tag ∈ tags', tag ∉ tags → report.taggedBy tag = [] ∧
        report'.taggedBy tag = [⟨tag, .insufficient 0⟩]) ∧
    (Interspersed (Arrival.IsElsewhere config) (arrivals steps) (arrivals steps') →
      accepted config.frequency .ttt (arrivals steps) ≠ [] → report'.hops = report.hops) := by
  intro report report' tags tags'
  refine ⟨fun h => ⟨?_, ?_⟩, ?_⟩
  · intro tag htag
    exact taggedBy_noise_of_mem h htag
  · intro tag htag' htag
    exact taggedBy_noise_of_not_mem h htag' htag
  · intro h hsome
    exact hops_elsewhere h hsome

def linesOf (texts : List String) : List Step := texts.map fun text => .line text.toList

/-- A duration, and a reading at either end of a hop. -/
def quietLines : List Step :=
  linesOf ["10:00:00 RDTSC parse 26", "10:00:00 TTT in 1", "10:00:02 TTT out 5"]

/-- Noise of each sort, some of it on a tag that has a duration and some on another. -/
def noisyLines : List Step :=
  linesOf ["10:00:00 RDTSC parse 0", "10:00:00 RDTSC parse 26", "10:00:00 RDTSC book nan",
    "10:00:00 TTT in 1", "10:00:01 RDTSC parse -3", "10:00:02 TTT out 5", "10:00:02 RDTSC book inf"]

/-- A reading between two that belong together. -/
def readingBetween : List Step :=
  linesOf ["10:00:00 RDTSC parse 26", "10:00:00 TTT in 1", "10:00:01 TTT aside 3", "10:00:02 TTT out 5"]

def inToOut : Config := ⟨.default, [⟨"in", "out"⟩]⟩

theorem noise_inert_inToOut :
    Interspersed (Arrival.IsNoise .default) (arrivals quietLines) (arrivals noisyLines) ∧
      (∃ outcome,
        (analyze inToOut ((Store.empty .default).run quietLines).finish).taggedBy "parse" =
          [⟨"parse", outcome⟩] ∧
        (analyze inToOut ((Store.empty .default).run noisyLines).finish).taggedBy "parse" =
          [⟨"parse", outcome⟩]) ∧
      (analyze inToOut ((Store.empty .default).run noisyLines).finish).taggedBy "book" =
        [⟨"book", .insufficient 0⟩] ∧
      Interspersed (Arrival.IsElsewhere inToOut) (arrivals quietLines) (arrivals readingBetween) ∧
      accepted .default .ttt (arrivals quietLines) ≠ [] ∧
      (analyze inToOut ((Store.empty .default).run readingBetween).finish).hops =
        (analyze inToOut ((Store.empty .default).run quietLines).finish).hops := by
  have hnoise : Interspersed (Arrival.IsNoise .default) (arrivals quietLines) (arrivals noisyLines) := by
    refine .add ?_ (.keep _ (.add ?_ (.keep _ (.add ?_ (.keep _ (.add ?_ .nil))))))
    · decide +kernel
    · decide +kernel
    · decide +kernel
    · decide +kernel
  have haside : Interspersed (Arrival.IsElsewhere inToOut) (arrivals quietLines)
      (arrivals readingBetween) := by
    refine .keep _ (.keep _ (.add ?_ (.keep _ .nil)))
    decide +kernel
  have hsome : accepted .default .ttt (arrivals quietLines) ≠ [] := by decide +kernel
  obtain ⟨hkept, hnew⟩ := (noise_inert inToOut quietLines noisyLines).1 hnoise
  refine ⟨hnoise, hkept "parse" (by decide +kernel), ?_, haside, hsome, ?_⟩
  · exact (hnew "book" (by decide +kernel) (by decide +kernel)).2
  · exact (noise_inert inToOut quietLines readingBetween).2 haside hsome

end LatencyLog
