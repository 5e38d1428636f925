import LatencyLog.Analysis
import LatencyLog.Proofs.Store.NormalForm

/-!
# Tags of a record set, and what is reported under them

A set reports on the tags that occur in its RDTSC stream, on each of them once (`taggedBy_analyze`). Whether
a tag occurs can be asked before the stream is brought into its final form, as a repetition has the tag of
what it repeats (`mem_rdtscTags_run_iff`).
-/

namespace LatencyLog

namespace RecordSet

theorem mem_rdtscTags_iff {set : RecordSet} {tag : String} :
    tag ∈ set.rdtscTags ↔ ∃ r ∈ set.rdtsc, r.tag = tag := by
  have h : tag ∈ set.rdtscTags.map id ↔ tag ∈ (set.rdtsc.map Record.tag).map id :=
    mem_map_key_firstOccurrences
  rw [List.map_id, List.map_id, List.mem_map] at h
  exact h

theorem nodup_rdtscTags (set : RecordSet) : set.rdtscTags.Nodup :=
  firstOccurrences_pairwise_key_ne (set.rdtsc.map Record.tag)

end RecordSet

/-- What is reported on a tag. -/
def Report.taggedBy (report : Report) (tag : String) : List TagReport :=
  report.rdtsc.filter fun t => decide (t.tag = tag)

/-- **A tag that occurs is reported on once**, and one that does not is not. -/
theorem taggedBy_analyze (config : Config) (set : RecordSet) (tag : String) :
    (analyze config set).taggedBy tag =
      if tag ∈ set.rdtscTags then [Analysis.tagReport set tag] else [] := by
  show (set.rdtscTags.map (Analysis.tagReport set)).filter (fun t => decide (t.tag = tag)) = _
  rw [List.filter_map]
  show (set.rdtscTags.filter fun t => decide (t = tag)).map _ = _
  rw [List.filter_eq, set.nodup_rdtscTags.count]
  split <;> rfl

theorem mem_rdtscTags_run_iff {f : Frequency} {steps : List Step} {tag : String} :
    tag ∈ ((Store.empty f).run steps).finish.rdtscTags ↔
      tag ∈ (accepted f .rdtsc (arrivals steps)).map Record.tag := by
  have hstream : ((Store.empty f).run steps).finish.rdtsc =
      RecordSet.normalize (accepted f .rdtsc (arrivals steps)) :=
    Store.stream_run_empty f steps .rdtsc
  rw [RecordSet.mem_rdtscTags_iff, hstream, List.mem_map]
  constructor
  · rintro ⟨r, hr, htag⟩
    exact ⟨r, RecordSet.mem_of_mem_normalize hr, htag⟩
  · rintro ⟨r, hr, htag⟩
    obtain ⟨s, hs, hkey⟩ := RecordSet.exists_mem_normalize_of_mem hr
    exact ⟨s, hs, (congrArg Record.Key.tag hkey).trans htag⟩

theorem taggedBy_run_of_mem (config : Config) {f : Frequency} {steps : List Step} {tag : String}
    (h : tag ∈ (accepted f .rdtsc (arrivals steps)).map Record.tag) :
    (analyze config ((Store.empty f).run steps).finish).taggedBy tag =
      [Analysis.tagReport ((Store.empty f).run steps).finish tag] := by
  rw [taggedBy_analyze, if_pos (mem_rdtscTags_run_iff.mpr h)]

end LatencyLog
