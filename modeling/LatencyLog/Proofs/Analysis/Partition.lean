import LatencyLog.Proofs.Store.Tags
import Mathlib.Algebra.BigOperators.Group.List.Lemmas
import Mathlib.Algebra.GroupWithZero.Nat
import Mathlib.Data.List.Count

/-!
# The RDTSC stream is divided among its tags

The tags are collected in one pass over the stream and each series in another, and nothing ties the passes
together but the tags themselves. `DividedBy` is what has to come of it: the series take the stream apart
and nothing is lost, so their lengths add up to that of the stream.

The tags are in the order of their first records. Where the stream is in the order of time this is the
order of the times at which they were first seen (`rdtscTags_chronological`), and it is the order in which
they are reported on.
-/

namespace LatencyLog.RecordSet

variable {set : RecordSet}

/-- The RDTSC stream is taken apart by these tags. -/
structure DividedBy (set : RecordSet) (tags : List String) : Prop where
  distinct : tags.Nodup
  /-- A tag stands in front of those that occur first further back. -/
  ordered : tags.Pairwise fun s t =>
    set.rdtsc.findIdx (fun r => decide (r.tag = s)) < set.rdtsc.findIdx (fun r => decide (r.tag = t))
  /-- A record is in the series of one tag and in no other. -/
  placed : ∀ r ∈ set.rdtsc, ∃! tag, tag ∈ tags ∧ r ∈ set.rdtscFor tag
  /-- It is there as often as it is in the stream. -/
  counted : ∀ tag, ∀ r ∈ set.rdtscFor tag, (set.rdtscFor tag).count r = set.rdtsc.count r
  /-- A series keeps the order of the stream. -/
  along : ∀ tag, (set.rdtscFor tag).Sublist set.rdtsc
  /-- Other tags have no records. -/
  empty_iff : ∀ tag, set.rdtscFor tag = [] ↔ tag ∉ tags
  /-- All series together are the stream. -/
  complete : (tags.flatMap set.rdtscFor).Perm set.rdtsc

/-! ## Series of one tag -/

theorem mem_rdtscFor_iff {tag : String} {r : Record} :
    r ∈ set.rdtscFor tag ↔ r ∈ set.rdtsc ∧ r.tag = tag := by
  rw [rdtscFor, List.mem_filter, decide_eq_true_eq]

theorem rdtscFor_sublist (set : RecordSet) (tag : String) : (set.rdtscFor tag).Sublist set.rdtsc :=
  List.filter_sublist

theorem count_rdtscFor (r : Record) : (set.rdtscFor r.tag).count r = set.rdtsc.count r :=
  List.count_filter (decide_eq_true rfl)

theorem rdtscFor_eq_nil_iff {tag : String} : set.rdtscFor tag = [] ↔ tag ∉ set.rdtscTags := by
  rw [rdtscFor, List.filter_eq_nil_iff, mem_rdtscTags_iff]
  simp

/-! ## All series -/

theorem count_rdtscTags (set : RecordSet) (tag : String) :
    set.rdtscTags.count tag = if tag ∈ set.rdtscTags then 1 else 0 :=
  set.nodup_rdtscTags.count

/-- **The series together are the stream**: a record is counted under its own tag and under no other. -/
theorem flatMap_rdtscFor_perm (set : RecordSet) :
    (set.rdtscTags.flatMap set.rdtscFor).Perm set.rdtsc := by
  rw [List.perm_iff_count]
  intro r
  have helsewhere : ∀ tag, tag ≠ r.tag → tag ∈ set.rdtscTags →
      (List.count r ∘ set.rdtscFor) tag = 0 := by
    intro tag hne _
    refine List.count_eq_zero.mpr fun hmem => ?_
    exact hne (mem_rdtscFor_iff.mp hmem).2.symm
  rw [List.count_flatMap, List.sum_map_eq_nsmul_single r.tag _ helsewhere, count_rdtscTags,
    Function.comp_apply, count_rdtscFor]
  split
  · exact one_nsmul _
  · rename_i hnone
    -- A tag that does not occur is the tag of no record.
    rw [zero_nsmul, eq_comm, List.count_eq_zero]
    exact fun hmem => hnone (mem_rdtscTags_iff.mpr ⟨r, hmem, rfl⟩)

theorem sum_length_rdtscFor (set : RecordSet) :
    (set.rdtscTags.map fun tag => (set.rdtscFor tag).length).sum = set.rdtsc.length := by
  rw [← List.length_flatMap]
  exact set.flatMap_rdtscFor_perm.length_eq

theorem rdtscTags_ordered (set : RecordSet) :
    set.rdtscTags.Pairwise fun s t =>
      set.rdtsc.findIdx (fun r => decide (r.tag = s)) <
        set.rdtsc.findIdx (fun r => decide (r.tag = t)) := by
  have h : set.rdtscTags.Pairwise fun s t =>
      (set.rdtsc.map Record.tag).findIdx (fun tag => decide (id tag = id s)) <
        (set.rdtsc.map Record.tag).findIdx (fun tag => decide (id tag = id t)) :=
    firstOccurrences_pairwise_findIdx _
  simp only [List.findIdx_map, id_eq] at h
  exact h

theorem dividedBy_rdtscTags (set : RecordSet) : set.DividedBy set.rdtscTags where
  distinct := set.nodup_rdtscTags
  ordered := set.rdtscTags_ordered
  placed := by
    intro r hr
    refine ⟨r.tag, ⟨mem_rdtscTags_iff.mpr ⟨r, hr, rfl⟩, mem_rdtscFor_iff.mpr ⟨hr, rfl⟩⟩, ?_⟩
    rintro tag ⟨_, hmem⟩
    exact (mem_rdtscFor_iff.mp hmem).2.symm
  counted := by
    intro tag r hr
    obtain ⟨_, rfl⟩ := mem_rdtscFor_iff.mp hr
    exact count_rdtscFor r
  along := set.rdtscFor_sublist
  empty_iff := fun _ => rdtscFor_eq_nil_iff
  complete := set.flatMap_rdtscFor_perm

/-! ## Times -/

/-- Tags are in the order of the times at which they were first seen. -/
theorem rdtscTags_chronological (hordered : set.rdtsc.Pairwise fun a b => a.time ≤ b.time) :
    set.rdtscTags.Pairwise fun s t =>
      ∀ a ∈ (set.rdtscFor s).head?, ∀ b ∈ (set.rdtscFor t).head?, a.time ≤ b.time := by
  refine set.rdtscTags_ordered.imp fun {s t} hlt a ha b hb => ?_
  rw [rdtscFor, List.head?_filter, List.find?_eq_getElem?_findIdx] at ha hb
  obtain ⟨hs, rfl⟩ := List.getElem?_eq_some_iff.mp ha
  obtain ⟨ht, rfl⟩ := List.getElem?_eq_some_iff.mp hb
  exact List.pairwise_iff_getElem.mp hordered _ _ hs ht hlt

end LatencyLog.RecordSet

namespace LatencyLog

/-- **The RDTSC stream of any set is divided among its tags, and the reports follow them.** The series that
are summarized are those of the tags; they add up to the number of records, and there is one report for
each, named by its tag, in the order of the tags. In a stream that is in the order of time that is the
order in which the tags were first seen. -/
theorem rdtsc_divided (config : Config) (set : RecordSet) :
    set.DividedBy set.rdtscTags ∧
    ((set.rdtsc.Pairwise fun a b => a.time ≤ b.time) →
      set.rdtscTags.Pairwise fun s t =>
        ∀ a ∈ (set.rdtscFor s).head?, ∀ b ∈ (set.rdtscFor t).head?, a.time ≤ b.time) ∧
    (set.rdtscTags.map fun tag => (set.rdtscFor tag).length).sum =
      (analyze config set).rdtscRecords ∧
    (analyze config set).rdtsc = set.rdtscTags.map fun tag =>
      ⟨tag, Series.summarize .point ((set.rdtscFor tag).map Record.point)⟩ :=
  ⟨set.dividedBy_rdtscTags, RecordSet.rdtscTags_chronological, set.sum_length_rdtscFor, rfl⟩

/-- Three tags, the first of which to arrive is not the first in time. -/
def threeTags : List Step :=
  ["10:00:00.000003 RDTSC B 26", "10:00:00.000001 RDTSC A 26", "10:00:00.000002 RDTSC B 26",
    "10:00:00.000004 RDTSC C 26", "10:00:00.000005 RDTSC A 26"].map fun text => .line text.toList

theorem rdtsc_divided_threeTags :
    let set := ((Store.empty .default).run threeTags).finish
    (set.rdtsc.Pairwise fun a b => a.time ≤ b.time) ∧
      set.DividedBy set.rdtscTags ∧
      (∀ tag, tag ∈ set.rdtscTags ↔ tag ∈ ["A", "B", "C"]) ∧
      (set.rdtscTags.Pairwise fun s t =>
        ∀ a ∈ (set.rdtscFor s).head?, ∀ b ∈ (set.rdtscFor t).head?, a.time ≤ b.time) ∧
      (analyze .default set).rdtsc.map TagReport.tag = set.rdtscTags := by
  intro set
  have hordered : set.rdtsc.Pairwise fun a b => a.time ≤ b.time := RecordSet.normalize_ordered _
  obtain ⟨hdivided, hchronological, _, hreports⟩ := rdtsc_divided .default set
  refine ⟨hordered, hdivided, fun tag => ?_, hchronological hordered, ?_⟩
  · have htags : (accepted .default .rdtsc (arrivals threeTags)).map Record.tag =
        ["B", "A", "B", "C", "A"] := by decide +kernel
    rw [mem_rdtscTags_run_iff, htags]
    simp only [List.mem_cons, List.not_mem_nil, or_false]
    tauto
  · rw [hreports, List.map_map]
    exact List.map_id' _

end LatencyLog
