import LatencyLog.Proofs.Analysis.ZeroSigns
import LatencyLog.Proofs.Store.NormalForm
import LatencyLog.Proofs.Text.Times

/-!
# Arrival in another order

Two runs are compared that deliver the same arrivals in different orders. Their counters agree, being
sums. Their streams need not: records of one time stay in the order of their arrival, and of records
that are one seen again the first is kept. The first cannot happen where records of one time are always
one seen again (`TiesRepeat`). The second still does, but all it leaves behind is the sign of a zero:
without it a stream is in the strict order of time, and so it is fixed by its members
(`normalize_map_canonical_perm`), which do not depend on any order. A report does not show the signs of
zeros, and that closes the gap (`analyze_run_perm`).
-/

namespace LatencyLog

/-- Records of one time are one record seen again. -/
def TiesRepeat (records : List Record) : Prop :=
  ∀ r ∈ records, ∀ s ∈ records, r.time = s.time → r.Repeats s

instance (records : List Record) : Decidable (TiesRepeat records) :=
  inferInstanceAs (Decidable (∀ r ∈ records, ∀ s ∈ records, r.time = s.time → r.Repeats s))

theorem TiesRepeat.of_perm {records records' : List Record} (h : TiesRepeat records)
    (hperm : records.Perm records') : TiesRepeat records' := by
  intro r hr s hs htime
  exact h r (hperm.mem_iff.mpr hr) s (hperm.mem_iff.mpr hs) htime

/-! ## Streams without the signs of zeros -/

namespace RecordSet

theorem mem_normalize_map_canonical_iff (records : List Record) (c : Record) :
    c ∈ (normalize records).map Record.canonical ↔ c ∈ records.map Record.canonical := by
  constructor
  · intro hc
    obtain ⟨s, hs, rfl⟩ := List.mem_map.mp hc
    exact List.mem_map_of_mem (mem_of_mem_normalize hs)
  · intro hc
    obtain ⟨r, hr, rfl⟩ := List.mem_map.mp hc
    obtain ⟨s, hs, hkey⟩ := exists_mem_normalize_of_mem hr
    rw [← Record.canonical_eq_iff.mpr hkey]
    exact List.mem_map_of_mem hs

/-- Without ties a stream is in the strict order of time. -/
theorem normalize_strict {records : List Record} (h : TiesRepeat records) :
    (normalize records).Pairwise fun r s => r.time.count < s.time.count := by
  have hboth := (normalize_ordered records).and (normalize_pairwise_key_ne records)
  refine hboth.imp_of_mem fun {r s} hr hs ⟨hle, hne⟩ => ?_
  refine Nat.lt_of_le_of_ne (time_le_iff.mp hle) fun hcount => ?_
  have hrepeats : r.Repeats s :=
    h r (mem_of_mem_normalize hr) s (mem_of_mem_normalize hs) (TimeOfDay.count_injective hcount)
  exact hne (Record.repeats_iff_key_eq.mp hrepeats)

/-- **Up to the signs of zeros, a stream does not depend on the order of arrival.** -/
theorem normalize_map_canonical_perm {records records' : List Record} (hperm : records.Perm records')
    (hties : TiesRepeat records) :
    (normalize records).map Record.canonical = (normalize records').map Record.canonical := by
  have hstrict : ∀ rs : List Record, TiesRepeat rs →
      ((normalize rs).map Record.canonical).Pairwise fun r s => r.time.count < s.time.count := by
    intro rs hrs
    exact List.pairwise_map.mpr (normalize_strict hrs)
  refine eq_of_pairwise_of_mem_iff (fun r s h h' => Nat.lt_asymm h h') (hstrict _ hties)
    (hstrict _ (hties.of_perm hperm)) fun c => ?_
  rw [mem_normalize_map_canonical_iff, mem_normalize_map_canonical_iff]
  exact (hperm.map Record.canonical).mem_iff

/-- Of two records that are one seen again, the first stays. -/
theorem normalize_pair_of_repeats {r r' : Record} (h : r.Repeats r') : normalize [r, r'] = [r] := by
  have hkey : r'.key = r.key := (Record.repeats_iff_key_eq.mp h).symm
  have hfirst : firstOccurrences Record.key [r, r'] = [r] := by
    rw [firstOccurrences_cons, List.filter_cons_of_neg (by simp [hkey]), List.filter_nil,
      firstOccurrences_nil]
  rw [normalize, hfirst, List.mergeSort_singleton]

end RecordSet

/-! ## Runs -/

theorem accepted_perm {as as' : List Arrival} (h : as.Perm as') (f : Frequency) (kind : EventKind) :
    (accepted f kind as).Perm (accepted f kind as') := h.filterMap _

theorem tally_run_perm {steps steps' : List Step} (h : (arrivals steps).Perm (arrivals steps'))
    (f : Frequency) :
    ((Store.empty f).run steps).finish.tally = ((Store.empty f).run steps').finish.tally := by
  rw [Store.tally_run_empty, Store.tally_run_empty]
  exact (h.map _).sum_eq

theorem canonical_run_perm {f : Frequency} {steps steps' : List Step}
    (h : (arrivals steps).Perm (arrivals steps'))
    (hties : ∀ kind, TiesRepeat (accepted f kind (arrivals steps))) :
    ((Store.empty f).run steps).finish.canonical = ((Store.empty f).run steps').finish.canonical := by
  have hstream : ∀ kind, (((Store.empty f).run steps).finish.stream kind).map Record.canonical =
      (((Store.empty f).run steps').finish.stream kind).map Record.canonical := by
    intro kind
    rw [Store.stream_run_empty, Store.stream_run_empty]
    exact RecordSet.normalize_map_canonical_perm (accepted_perm h f kind) (hties kind)
  rw [RecordSet.canonical, RecordSet.canonical, RecordSet.mk.injEq]
  exact ⟨hstream .rdtsc, hstream .ttt, tally_run_perm h f⟩

/-- **A report does not depend on the order of arrival**, as far as records of one time are one seen
again. -/
theorem analyze_run_perm {config : Config} {steps steps' : List Step}
    (h : (arrivals steps).Perm (arrivals steps'))
    (hties : ∀ kind, TiesRepeat (accepted config.frequency kind (arrivals steps))) :
    analyze config ((Store.empty config.frequency).run steps).finish =
      analyze config ((Store.empty config.frequency).run steps').finish := by
  rw [← analyze_canonical, canonical_run_perm h hties, analyze_canonical]

/-- Whole operations in another order are arrivals in another order. -/
theorem arrivals_perm {steps steps' : List Step} (h : steps.Perm steps') :
    (arrivals steps).Perm (arrivals steps') := h.flatMap_right _

theorem analyze_ingest_perm {config : Config} {fs : FileSystem} {paths paths' : List String}
    (hperm : paths.Perm paths') (hread : ∀ p ∈ paths, ∃ bytes, fs.read p = .ok bytes)
    (hties : ∀ kind,
      TiesRepeat (accepted config.frequency kind (arrivals (paths.map (Step.file fs))))) :
    ∃ set set', ingest config fs paths = .ok set ∧ ingest config fs paths' = .ok set' ∧
      analyze config set = analyze config set' := by
  have hread' : ∀ p ∈ paths', ∃ bytes, fs.read p = .ok bytes :=
    fun p hp => hread p (hperm.mem_iff.mpr hp)
  refine ⟨_, _, ingest_of_readable hread, ingest_of_readable hread', ?_⟩
  exact analyze_run_perm (arrivals_perm (hperm.map _)) hties

/-! ## What does depend on the order -/

theorem stream_run_pair_of_repeats (f : Frequency) {e e' : Entry} (hkind : e.kind = e'.kind)
    (h : e.record.Repeats e'.record) :
    ((Store.empty f).run [.push e, .push e']).finish.stream e.kind = [e.record] := by
  have haccepted : accepted f e.kind (arrivals [.push e, .push e']) = [e.record, e'.record] := by
    show [Arrival.entry e, Arrival.entry e'].filterMap (Arrival.record? f e.kind) = _
    simp [Arrival.record?, Arrival.read, hkind]
  rw [Store.stream_run_empty, haccepted, RecordSet.normalize_pair_of_repeats h]

/-- **The report does not depend on the order of arrival, and the streams behind it do.** The same
arrivals in another order, or the same files, give the same report if records of one time are one
record seen again. Of two records that differ in the sign of a zero the first stays, all the same. -/
theorem report_reordered (config : Config) :
    (∀ steps steps' : List Step, (arrivals steps).Perm (arrivals steps') →
      (∀ kind, TiesRepeat (accepted config.frequency kind (arrivals steps))) →
      analyze config ((Store.empty config.frequency).run steps).finish =
        analyze config ((Store.empty config.frequency).run steps').finish) ∧
    (∀ (fs : FileSystem) (paths paths' : List String), paths.Perm paths' →
      (∀ p ∈ paths, ∃ bytes, fs.read p = .ok bytes) →
      (∀ kind, TiesRepeat (accepted config.frequency kind (arrivals (paths.map (Step.file fs))))) →
      ∃ set set', ingest config fs paths = .ok set ∧ ingest config fs paths' = .ok set' ∧
        analyze config set = analyze config set') ∧
    ∀ e e' : Entry, e.kind = e'.kind → e.record.Repeats e'.record →
      ((Store.empty config.frequency).run [.push e, .push e']).finish.stream e.kind = [e.record] ∧
      ((Store.empty config.frequency).run [.push e', .push e]).finish.stream e.kind =
        [e'.record] := by
  refine ⟨?_, ?_, ?_⟩
  · intro steps steps' hperm hties
    exact analyze_run_perm hperm hties
  · intro fs paths paths' hperm hread hties
    exact analyze_ingest_perm hperm hread hties
  · intro e e' hkind h
    have hother := stream_run_pair_of_repeats config.frequency hkind.symm h.symm
    rw [← hkind] at hother
    exact ⟨stream_run_pair_of_repeats config.frequency hkind h, hother⟩

/-- A reading of zero, of either sign. -/
def zeroAtTen (negative : Bool) : Entry :=
  ⟨.tenOClock, .ttt, "in", .finite negative .zero⟩

/-- Zeros of either sign at one time, and a reading a second later. -/
def zerosThenReading : List Step :=
  [.push (zeroAtTen false), .line "10:00:00 TTT in -0".toList, .line "10:00:01 TTT out 5".toList]

theorem report_zerosThenReading_reversed :
    (∀ kind, TiesRepeat
        (accepted Config.default.frequency kind (arrivals zerosThenReading))) ∧
      analyze .default ((Store.empty Config.default.frequency).run zerosThenReading).finish =
        analyze .default
          ((Store.empty Config.default.frequency).run zerosThenReading.reverse).finish ∧
      ((Store.empty Config.default.frequency).run
          [.push (zeroAtTen false), .push (zeroAtTen true)]).finish.stream .ttt =
        [(zeroAtTen false).record] ∧
      ((Store.empty Config.default.frequency).run
          [.push (zeroAtTen true), .push (zeroAtTen false)]).finish.stream .ttt =
        [(zeroAtTen true).record] := by
  have hties : ∀ kind, TiesRepeat
      (accepted Config.default.frequency kind (arrivals zerosThenReading)) := by
    intro kind
    cases kind with
    | rdtsc => decide +kernel
    | ttt => decide +kernel
  have hperm := arrivals_perm (List.reverse_perm zerosThenReading).symm
  obtain ⟨hreports, _, hzeros⟩ := report_reordered .default
  exact ⟨hties, hreports _ _ hperm hties,
    hzeros (zeroAtTen false) (zeroAtTen true) rfl (by decide +kernel)⟩

end LatencyLog
