import LatencyLog.Proofs.FirstOccurrence
import LatencyLog.Proofs.Store.Arrivals

/-!
# Files that are read twice

Overlapping patterns and logs that were shipped again make one run read the same lines twice. They are
counted twice, since the counters are about lines; apart from that nothing in the report is changed.

What it is for two files to be the same is left open, as any test that only files with one content
pass: the same path, two paths to one place (`FileSystem.sameFile`), or a copy elsewhere. The argument
is about blocks of records, one block for each file. A block that has come before has no key that is
new, so the first occurrences of the whole are those of the blocks that come first
(`firstOccurrences_flatMap_eraseDupsBy`), and all that follows in a run works on those.
-/

namespace LatencyLog

/-- Two paths that lead to one place. -/
def FileSystem.sameFile (fs : FileSystem) (p q : String) : Bool :=
  match fs.place p, fs.place q with
  | .ok place, .ok place' => decide (place = place')
  | _, _ => false

/-- What is read at a path depends on its place. -/
theorem FileSystem.read_eq_of_sameFile {fs : FileSystem} {p q : String} (h : fs.sameFile p q = true) :
    fs.read p = fs.read q := by
  have hplace : fs.place p = fs.place q := by
    unfold sameFile at h
    split at h
    · rename_i hp hq
      rw [hp, hq, of_decide_eq_true h]
    · cases h
  rw [read, read, resolve, resolve, hplace]

/-- Operations deliver in blocks, and what is accepted of a run is accepted block by block. -/
theorem accepted_arrivals_map {β : Type} (f : Frequency) (kind : EventKind) (op : β → Step)
    (bs : List β) :
    accepted f kind (arrivals (bs.map op)) = bs.flatMap fun b => accepted f kind (op b).arrivals := by
  rw [accepted, arrivals, List.filterMap_flatMap, List.flatMap_map]
  rfl

/-- **A stream forgets operations that deliver again what an earlier one delivered.** -/
theorem Store.stream_run_eraseDupsBy {β : Type} {same : β → β → Bool} {op : β → Step}
    (hsame : ∀ b c, same b c = true → (op b).arrivals = (op c).arrivals)
    (f : Frequency) (bs : List β) (kind : EventKind) :
    ((empty f).run ((bs.eraseDupsBy same).map op)).finish.stream kind =
      ((empty f).run (bs.map op)).finish.stream kind := by
  rw [stream_run_empty, stream_run_empty, accepted_arrivals_map, accepted_arrivals_map,
    RecordSet.normalize, RecordSet.normalize, firstOccurrences_flatMap_eraseDupsBy]
  intro b c h
  rw [hsame b c h]

/-- A report shows a record set by its streams and its tally. -/
theorem analyze_eq_of_stream_eq {config : Config} {set set' : RecordSet}
    (h : ∀ kind, set.stream kind = set'.stream kind) :
    analyze config set = { analyze config set' with tally := set.tally } := by
  obtain ⟨rdtsc, ttt, tally⟩ := set
  obtain ⟨rdtsc', ttt', tally'⟩ := set'
  obtain rfl : rdtsc = rdtsc' := h .rdtsc
  obtain rfl : ttt = ttt' := h .ttt
  rfl

theorem mem_of_mem_eraseDupsBy {β : Type} {same : β → β → Bool} {b : β} :
    ∀ {bs : List β}, b ∈ bs.eraseDupsBy same → b ∈ bs
  | [], h => h
  | c :: cs, h => by
    rw [List.eraseDupsBy_cons] at h
    rcases List.mem_cons.mp h with rfl | h
    · exact List.mem_cons_self ..
    · exact List.mem_cons_of_mem c (List.mem_of_mem_filter (mem_of_mem_eraseDupsBy h))
termination_by bs => bs.length
decreasing_by exact Nat.lt_succ_of_le (List.length_filter_le _ _)

/-- **Files that are read again change no more than the counters of lines.** -/
theorem analyze_ingest_eraseDupsBy (config : Config) (fs : FileSystem)
    (same : String → String → Bool) (hsame : ∀ p q, same p q = true → fs.read p = fs.read q)
    (paths : List String) (hread : ∀ p ∈ paths, ∃ bytes, fs.read p = .ok bytes) :
    ∃ all once, ingest config fs paths = .ok all ∧
      ingest config fs (paths.eraseDupsBy same) = .ok once ∧
      analyze config all = { analyze config once with tally := all.tally } := by
  have hread' : ∀ p ∈ paths.eraseDupsBy same, ∃ bytes, fs.read p = .ok bytes :=
    fun p hp => hread p (mem_of_mem_eraseDupsBy hp)
  refine ⟨_, _, ingest_of_readable hread, ingest_of_readable hread', ?_⟩
  refine analyze_eq_of_stream_eq fun kind => ?_
  refine (Store.stream_run_eraseDupsBy (fun p q h => ?_) config.frequency paths kind).symm
  rw [Step.arrivals, Step.arrivals, hsame p q h]

/-- A log and another one. -/
def FileSystem.shipped : FileSystem where
  root := .directory
    [("a.log", .file "10:00:00 TTT in 1\n10:00:01 TTT out 3\n".toUTF8.toList),
      ("b.log", .file "10:00:00 RDTSC parse 26\n".toUTF8.toList)]
  here := []

theorem analyze_ingest_shipped_again :
    (∀ p q, FileSystem.shipped.sameFile p q = true →
        FileSystem.shipped.read p = FileSystem.shipped.read q) ∧
      (∀ p ∈ ["a.log", "b.log", "./a.log"], ∃ bytes, FileSystem.shipped.read p = .ok bytes) ∧
      ["a.log", "b.log", "./a.log"].eraseDupsBy FileSystem.shipped.sameFile = ["a.log", "b.log"] ∧
      ∃ all once, ingest .default .shipped ["a.log", "b.log", "./a.log"] = .ok all ∧
        ingest .default .shipped ["a.log", "b.log"] = .ok once ∧
        analyze .default all = { analyze .default once with tally := all.tally } := by
  have hsame : ∀ p q, FileSystem.shipped.sameFile p q = true →
      FileSystem.shipped.read p = FileSystem.shipped.read q :=
    fun _ _ h => FileSystem.read_eq_of_sameFile h
  have hread : ∀ p ∈ ["a.log", "b.log", "./a.log"],
      ∃ bytes, FileSystem.shipped.read p = .ok bytes := by
    intro p hp
    simp only [List.mem_cons, List.not_mem_nil, or_false] at hp
    rcases hp with rfl | rfl | rfl <;> exact ⟨_, rfl⟩
  have honce : ["a.log", "b.log", "./a.log"].eraseDupsBy FileSystem.shipped.sameFile =
      ["a.log", "b.log"] := by decide +kernel
  have h := analyze_ingest_eraseDupsBy .default .shipped FileSystem.shipped.sameFile hsame _ hread
  rw [honce] at h
  exact ⟨hsame, hread, honce, h⟩

end LatencyLog
