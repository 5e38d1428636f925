import LatencyLog.Proofs.FirstOccurrence
import LatencyLog.Proofs.StableSort
import LatencyLog.Proofs.Store.Arrivals
import LatencyLog.Proofs.Store.Repetition

/-!
# The final form of a stream

`RecordSet.normalize` works in two passes, a hash table for repetitions and a stable sort. `NormalForm`
says what comes out without either of them: which records of those that arrived are in the stream, and
in what order. Nothing is left open in it, so it is not only true of what the store makes but fixes it
(`normalForm_iff`).

The two passes are taken one at a time. What the first one leaves is known key by key, and a key
contains a time, so the sort does not touch what is known (`filter_key_normalize`); what it leaves is
also in the order of arrival, and within one time the sort does not touch that either
(`normalize_stable`).
-/

namespace LatencyLog

/-- What a stream has to be, the records of its kind having arrived in a certain order. -/
structure NormalForm (arrived stream : List Record) : Prop where
  /-- Times do not go back. -/
  ordered : stream.Pairwise fun r s => r.time ≤ s.time
  /-- Nothing is in the stream twice. -/
  distinct : stream.Pairwise fun r s => ¬ r.Repeats s
  /-- Of all that is one record seen again, the one that came first is in the stream, and it alone. -/
  complete : ∀ r ∈ arrived, ∃ first,
    arrived.find? (fun a => decide (a.Repeats r)) = some first ∧
      stream.filter (fun s => decide (s.Repeats r)) = [first]
  /-- Nothing is in the stream that did not arrive. -/
  only : ∀ s ∈ stream, s ∈ arrived
  /-- Records of one time are in the order in which they first came. -/
  stable : stream.Pairwise fun r s => r.time = s.time →
    arrived.findIdx (fun a => decide (a.Repeats r)) < arrived.findIdx (fun a => decide (a.Repeats s))

theorem time_le_iff {s t : TimeOfDay} : s ≤ t ↔ s.count ≤ t.count := Iff.rfl

/-! ## Two passes -/

namespace RecordSet

theorem normalize_ordered (records : List Record) :
    (normalize records).Pairwise fun r s => r.time ≤ s.time :=
  pairwise_rank_mergeSort (fun r : Record => r.time.count) _

theorem normalize_perm (records : List Record) :
    (normalize records).Perm (firstOccurrences Record.key records) := List.mergeSort_perm _ _

theorem mem_of_mem_normalize {records : List Record} {r : Record} (h : r ∈ normalize records) :
    r ∈ records :=
  (firstOccurrences_sublist records).subset ((normalize_perm records).mem_iff.mp h)

theorem normalize_eq_nil_iff {records : List Record} : normalize records = [] ↔ records = [] := by
  rw [← List.length_eq_zero_iff, (normalize_perm records).length_eq, List.length_eq_zero_iff,
    firstOccurrences_eq_nil_iff]

theorem length_normalize_le (records : List Record) :
    (normalize records).length ≤ records.length := by
  rw [(normalize_perm records).length_eq]
  exact (firstOccurrences_sublist records).length_le

theorem normalize_pairwise_key_ne (records : List Record) :
    (normalize records).Pairwise fun r s => r.key ≠ s.key :=
  ((normalize_perm records).pairwise_iff Ne.symm).mpr (firstOccurrences_pairwise_key_ne records)

/-- The records of one time are those that the first pass left, in its order. -/
theorem filter_time_normalize (n : Nat) (records : List Record) :
    (normalize records).filter (fun r => decide (r.time.count = n)) =
      (firstOccurrences Record.key records).filter fun r => decide (r.time.count = n) :=
  filter_rank_mergeSort (fun r : Record => r.time.count) n _

/-- **Of each key the record that came first is in the stream, and it alone.** -/
theorem filter_key_normalize (k : Record.Key) (records : List Record) :
    (normalize records).filter (fun r => decide (r.key = k)) =
      (records.find? fun r => decide (r.key = k)).toList := by
  -- A test for a key is a test for a time and more.
  have htime : ∀ rs : List Record, rs.filter (fun r => decide (r.key = k)) =
      (rs.filter fun r => decide (r.time.count = k.time.count)).filter
        fun r => decide (r.key = k) := by
    intro rs
    rw [List.filter_filter]
    refine List.filter_congr fun r _ => ?_
    by_cases hr : r.key = k
    · have hcount : r.time.count = k.time.count := by rw [← hr]; rfl
      simp [hr, hcount]
    · simp [hr]
  rw [htime, filter_time_normalize, ← htime, filter_key_firstOccurrences]

theorem normalize_stable (records : List Record) :
    (normalize records).Pairwise fun r s => r.time = s.time →
      records.findIdx (fun a => decide (a.key = r.key)) <
        records.findIdx (fun a => decide (a.key = s.key)) := by
  have hranks : ∀ n, ((normalize records).filter fun r => decide (r.time.count = n)).Pairwise
      fun r s => records.findIdx (fun a => decide (a.key = r.key)) <
        records.findIdx (fun a => decide (a.key = s.key)) := by
    intro n
    rw [filter_time_normalize]
    exact (firstOccurrences_pairwise_findIdx records).filter _
  exact (pairwise_of_filter_rank hranks).imp fun h htime => h (congrArg TimeOfDay.count htime)

/-- **Records can be told apart before or after**, as long as a record and its repetitions are on one
side. -/
theorem filter_normalize {p : Record → Bool} (hp : ∀ r s : Record, r.key = s.key → p r = p s)
    (records : List Record) :
    (normalize records).filter p = normalize (records.filter p) := by
  have hsort := filter_mergeSort (fun r : Record => r.time.count) p (firstOccurrences Record.key records)
  rw [filter_firstOccurrences hp] at hsort
  exact hsort

/-- What is in order and without repetitions stays as it is. -/
theorem normalize_of_pairwise {records : List Record}
    (hordered : records.Pairwise fun r s => r.time ≤ s.time)
    (hdistinct : records.Pairwise fun r s => r.key ≠ s.key) : normalize records = records := by
  rw [normalize, firstOccurrences_of_pairwise hdistinct]
  exact List.mergeSort_of_pairwise (hordered.imp fun h => decide_eq_true h)

/-! ## What comes out, and that nothing else does -/

theorem normalForm_normalize (records : List Record) : NormalForm records (normalize records) where
  ordered := normalize_ordered records
  distinct := (normalize_pairwise_key_ne records).imp fun h hrep =>
    h (Record.repeats_iff_key_eq.mp hrep)
  complete r hr := by
    simp only [Record.decide_repeats]
    rw [filter_key_normalize]
    have hfound : (records.find? fun a => decide (a.key = r.key)).isSome = true :=
      List.find?_isSome.mpr ⟨r, hr, decide_eq_true rfl⟩
    obtain ⟨first, hfirst⟩ := Option.isSome_iff_exists.mp hfound
    exact ⟨first, hfirst, by rw [hfirst]; rfl⟩
  only _ := mem_of_mem_normalize
  stable := by
    simp only [Record.decide_repeats]
    exact normalize_stable records

/-- Whatever arrived, its key is in the stream. -/
theorem exists_mem_normalize_of_mem {records : List Record} {r : Record} (h : r ∈ records) :
    ∃ s ∈ normalize records, s.key = r.key := by
  obtain ⟨first, _, honly⟩ := (normalForm_normalize records).complete r h
  have hmem : first ∈ (normalize records).filter fun s => decide (s.Repeats r) := by
    rw [honly]
    exact List.mem_singleton_self first
  obtain ⟨hfirst, hrepeats⟩ := List.mem_filter.mp hmem
  exact ⟨first, hfirst, Record.repeats_iff_key_eq.mp (of_decide_eq_true hrepeats)⟩

end RecordSet

namespace NormalForm

variable {arrived stream stream' : List Record}

-- A record is in the stream if of all that repeat it, itself among them, it came first.

theorem mem_iff (h : NormalForm arrived stream) (s : Record) :
    s ∈ stream ↔ arrived.find? (fun a => decide (a.Repeats s)) = some s := by
  have hself : decide (s.Repeats s) = true := decide_eq_true s.repeats_rfl
  constructor
  · intro hs
    obtain ⟨first, hfirst, honly⟩ := h.complete s (h.only s hs)
    have hmem : s ∈ stream.filter fun a => decide (a.Repeats s) := List.mem_filter.mpr ⟨hs, hself⟩
    rw [honly, List.mem_singleton] at hmem
    rw [hfirst, hmem]
  · intro hs
    obtain ⟨first, hfirst, honly⟩ := h.complete s (List.mem_of_find?_eq_some hs)
    have hmem : first ∈ stream.filter fun a => decide (a.Repeats s) := by
      rw [honly]
      exact List.mem_singleton_self _
    rw [hfirst, Option.some.injEq] at hs
    rw [hs] at hmem
    exact (List.mem_filter.mp hmem).1

/-- The place of a record: its time, and within that the place at which it first came. -/
def Before (arrived : List Record) (r s : Record) : Prop :=
  r.time.count < s.time.count ∨ r.time = s.time ∧
    arrived.findIdx (fun a => decide (a.Repeats r)) < arrived.findIdx (fun a => decide (a.Repeats s))

theorem before_asymm (r s : Record) (h : Before arrived r s) : ¬ Before arrived s r := by
  rintro (h' | ⟨htime', h'⟩)
  · rcases h with h | ⟨htime, _⟩
    · exact Nat.lt_asymm h h'
    · rw [htime] at h'
      exact Nat.lt_irrefl _ h'
  · rcases h with h | ⟨_, h⟩
    · rw [htime'] at h
      exact Nat.lt_irrefl _ h
    · exact Nat.lt_asymm h h'

theorem pairwise_before (h : NormalForm arrived stream) : stream.Pairwise (Before arrived) := by
  refine (h.ordered.and h.stable).imp fun {r s} ⟨hle, hstable⟩ => ?_
  rcases Nat.lt_or_eq_of_le (time_le_iff.mp hle) with hlt | heq
  · exact Or.inl hlt
  · exact Or.inr ⟨TimeOfDay.count_injective heq, hstable (TimeOfDay.count_injective heq)⟩

/-- **There is one normal form.** Both streams have the same members, in the same order. -/
theorem unique (h : NormalForm arrived stream) (h' : NormalForm arrived stream') :
    stream = stream' :=
  eq_of_pairwise_of_mem_iff before_asymm h.pairwise_before h'.pairwise_before fun s => by
    rw [h.mem_iff, h'.mem_iff]

end NormalForm

theorem normalForm_iff {records stream : List Record} :
    NormalForm records stream ↔ stream = RecordSet.normalize records := by
  constructor
  · intro h
    exact h.unique (RecordSet.normalForm_normalize records)
  · rintro rfl
    exact RecordSet.normalForm_normalize records

/-! ## Streams of a store -/

/-- Something stays of whatever was accepted. -/
theorem stream_eq_nil_iff (f : Frequency) (steps : List Step) (kind : EventKind) :
    ((Store.empty f).run steps).finish.stream kind = [] ↔ accepted f kind (arrivals steps) = [] := by
  rw [Store.stream_run_empty, RecordSet.normalize_eq_nil_iff]

/-- **A stream is the normal form of what was accepted.** Whatever was done to an empty store, in
whatever order, for each kind the records that were accepted have one normal form, and that is the
stream. -/
theorem stream_iff_normalForm (f : Frequency) (steps : List Step) (kind : EventKind)
    (stream : List Record) :
    NormalForm (accepted f kind (arrivals steps)) stream ↔
      stream = ((Store.empty f).run steps).finish.stream kind := by
  rw [Store.stream_run_empty]
  exact normalForm_iff

end LatencyLog
