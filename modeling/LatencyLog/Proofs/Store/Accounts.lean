import LatencyLog.Proofs.Store.Counters
import LatencyLog.Proofs.Store.NormalForm
import LatencyLog.Proofs.Text.Times

/-!
# Every line is accounted for

The counters of a store are compared with each other, with the streams and with themselves at an earlier
point. At any point of a run they are the counters of some first arrivals (`counts_takeAll`), so the balance
is that of two ways to divide these up, and a counter does not go down because there are no fewer of them
later.

Behind it stands what a report makes of counters and streams. A stream can be shorter than its counter
says, as repetitions go; but something stays of anything, so it is empty only if nothing was accepted.
-/

namespace LatencyLog

/-! ## Points of a run -/

def Step.isPush : Step → Bool
  | .push _ => true
  | _ => false

theorem pushCount_ofByteLines (lines : List (List UInt8)) :
    pushCount (Arrival.ofByteLines lines) = 0 := by
  simp [pushCount, Arrival.ofByteLines, Arrival.isLine]

theorem pushCount_step (st : Step) : pushCount st.arrivals = if st.isPush then 1 else 0 := by
  cases st with
  | push e => rfl
  | line text => rfl
  | source src => exact pushCount_ofByteLines _
  | file fs path =>
    cases h : fs.read path with
    | ok bytes =>
      rw [Step.arrivals, h]
      exact pushCount_ofByteLines _
    | error cause =>
      rw [Step.arrivals, h]
      rfl

theorem pushCount_arrivals (steps : List Step) :
    pushCount (arrivals steps) = steps.countP Step.isPush := by
  induction steps with
  | nil => rfl
  | cons st steps ih =>
    show pushCount (st.arrivals ++ arrivals steps) = _
    rw [pushCount, List.countP_append, List.countP_cons, ← pushCount, ← pushCount, pushCount_step, ih,
      Nat.add_comm]

theorem first_arrivals {first steps : List Step} (h : first <+: steps) :
    arrivals first <+: arrivals steps := by
  obtain ⟨rest, rfl⟩ := h
  exact ⟨arrivals rest, List.flatMap_append.symm⟩

namespace Store

/-- A store into which so many entries were pushed is in balance. -/
structure Balanced (s : Store) (pushed : Nat) : Prop where
  /-- Each line and each push was accepted or skipped, and that once. -/
  accounted : s.tally.lines.toNat + pushed =
    s.tally.rdtsc.toNat + s.tally.ttt.toNat + s.tally.discarded.toNat
  /-- Accepted entries are there, repetitions and all. -/
  held : ∀ kind, (s.tally.entries kind).toNat = (s.gathered kind).length

section Points

variable {f : Frequency} {as bs : List Arrival}

theorem counts_takeAll (h : CountersFit f as) : ((empty f).takeAll as).tally.Counts f as := by
  have htally : ((empty f).takeAll as).tally = (as.map (Arrival.tally f)).sum := by
    rw [takeAll_tally]
    exact zero_add _
  rw [htally]
  exact counts_sum h

theorem gathered_takeAll_empty (f : Frequency) (as : List Arrival) (kind : EventKind) :
    ((empty f).takeAll as).gathered kind = accepted f kind as := by
  rw [takeAll_gathered]
  cases kind <;> rfl

theorem balanced_takeAll (h : CountersFit f as) : ((empty f).takeAll as).Balanced (pushCount as) := by
  have hcounts := counts_takeAll h
  have hrdtsc := hcounts.entries .rdtsc
  have httt := hcounts.entries .ttt
  refine ⟨?_, fun kind => ?_⟩
  · rw [hcounts.lines, hcounts.discarded, ← length_eq_lines, length_eq_outcomes f, ← hrdtsc, ← httt]
    rfl
  · rw [hcounts.entries, gathered_takeAll_empty]

/-- More arrivals count for more. -/
theorem atMost_takeAll (h : CountersFit f bs) (hinitial : as <+: bs) :
    ((empty f).takeAll as).tally.AtMost ((empty f).takeAll bs).tally := by
  have hfirst := counts_takeAll (h.of_first hinitial)
  have hall := counts_takeAll h
  have hsub := hinitial.sublist
  -- Adding a word can make a word smaller, so it is the counts behind the words that are compared.
  refine ⟨?_, fun kind => ?_, fun d => ?_, ?_⟩ <;> rw [UInt64.le_iff_toNat_le]
  · rw [hfirst.lines, hall.lines]
    exact hsub.countP_le
  · rw [hfirst.entries, hall.entries]
    exact (hsub.filterMap _).length_le
  · rw [hfirst.skipped, hall.skipped]
    exact hsub.countP_le
  · rw [hfirst.discarded, hall.discarded, discardCount_eq_countP, discardCount_eq_countP]
    exact hsub.countP_le

end Points

end Store

/-! ## Finished sets -/

theorem RecordSet.isEmpty_iff (set : RecordSet) :
    set.isEmpty = true ↔ ∀ kind, set.stream kind = [] := by
  rw [isEmpty, Bool.and_eq_true, List.isEmpty_iff, List.isEmpty_iff]
  constructor
  · rintro ⟨hrdtsc, httt⟩ kind
    cases kind with
    | rdtsc => exact hrdtsc
    | ttt => exact httt
  · intro h
    exact ⟨h .rdtsc, h .ttt⟩

/-- A report is empty as its record set is. -/
theorem isEmpty_analyze (config : Config) (set : RecordSet) :
    (analyze config set).isEmpty = set.isEmpty := by
  obtain ⟨rdtsc, ttt, tally⟩ := set
  cases rdtsc <;> cases ttt <;> simp [analyze, Report.isEmpty, RecordSet.isEmpty]

/-- Repetitions are counted, and what they repeat stays. -/
theorem stream_against_counter {f : Frequency} {steps : List Step}
    (hfit : CountersFit f (arrivals steps)) (kind : EventKind) :
    (((Store.empty f).run steps).finish.stream kind = [] ↔
      ((Store.empty f).run steps).finish.tally.entries kind = 0) ∧
    (((Store.empty f).run steps).finish.stream kind).length ≤
      (((Store.empty f).run steps).finish.tally.entries kind).toNat := by
  have hcounter : (((Store.empty f).run steps).finish.tally.entries kind).toNat =
      (accepted f kind (arrivals steps)).length := by
    show (((Store.empty f).run steps).tally.entries kind).toNat = _
    rw [Store.run_eq_takeAll]
    exact (Store.counts_takeAll hfit).entries kind
  constructor
  · rw [stream_eq_nil_iff, ← UInt64.toNat_inj, hcounter, ← List.length_eq_zero_iff]
    rfl
  · rw [hcounter, Store.stream_run_empty]
    exact RecordSet.length_normalize_le _

/-- **Every line is accounted for, once.** At any point of a run, also in the middle of a source, the lines
read so far and the entries pushed so far are as many as those that were accepted and those that were
skipped; the accepted ones are all there; and no counter has gone down since any earlier point. In the end
a stream is not longer than its counter says, and it is empty only if the counter is zero. So a record set
is empty, and a report on it is, if nothing was accepted. -/
theorem every_line_accounted (f : Frequency) (steps : List Step)
    (hfit : CountersFit f (arrivals steps)) :
    (∀ first, first <+: steps →
      ((Store.empty f).run first).Balanced (first.countP Step.isPush) ∧
      ∀ earlier, earlier <+: first →
        ((Store.empty f).run earlier).tally.AtMost ((Store.empty f).run first).tally) ∧
    (∀ as, as <+: arrivals steps →
      ((Store.empty f).takeAll as).Balanced (pushCount as) ∧
      ∀ earlier, earlier <+: as →
        ((Store.empty f).takeAll earlier).tally.AtMost ((Store.empty f).takeAll as).tally) ∧
    let set := ((Store.empty f).run steps).finish
    (∀ kind, (set.stream kind = [] ↔ set.tally.entries kind = 0) ∧
      (set.stream kind).length ≤ (set.tally.entries kind).toNat) ∧
    (set.isEmpty = true ↔ ∀ kind, accepted f kind (arrivals steps) = []) ∧
    ∀ config, (analyze config set).isEmpty = true ↔
      ∀ kind, accepted f kind (arrivals steps) = [] := by
  have hempty : (((Store.empty f).run steps).finish.isEmpty = true) ↔
      ∀ kind, accepted f kind (arrivals steps) = [] := by
    rw [RecordSet.isEmpty_iff]
    exact forall_congr' (stream_eq_nil_iff f steps)
  refine ⟨?_, ?_, ?_, hempty, ?_⟩
  · intro first hfirst
    have hinitial := first_arrivals hfirst
    rw [Store.run_eq_takeAll, ← pushCount_arrivals]
    refine ⟨Store.balanced_takeAll (hfit.of_first hinitial), fun earlier hearlier => ?_⟩
    rw [Store.run_eq_takeAll]
    exact Store.atMost_takeAll (hfit.of_first hinitial) (first_arrivals hearlier)
  · intro as has
    exact ⟨Store.balanced_takeAll (hfit.of_first has),
      fun earlier hearlier => Store.atMost_takeAll (hfit.of_first has) hearlier⟩
  · intro kind
    exact stream_against_counter hfit kind
  · intro config
    rw [isEmpty_analyze]
    exact hempty

/-- Two lines, the second one torn, and the beginning of a third. -/
def tornSource : List UInt8 := "10:00:00 TTT in 1\n10:00:01 TT\n10:00:0".toUTF8.toList

/-- An entry that is pushed, its line, a line of the other kind, a source that is read to its end, the same
one breaking off, and a file that is not there. -/
def mixedSteps : List Step :=
  [.push ⟨.tenOClock, .ttt, "in", .ofNat 1⟩, .line "10:00:00 TTT in 1".toList,
    .line "10:00:00 RDTSC parse 26".toList, .source ⟨tornSource, false⟩, .source ⟨tornSource, true⟩,
    .file ⟨.directory [], []⟩ "in.log"]

theorem every_line_accounted_mixed :
    CountersFit .default (arrivals mixedSteps) ∧ mixedSteps.take 4 <+: mixedSteps ∧
      ((Store.empty .default).run (mixedSteps.take 4)).Balanced 1 ∧
      ((Store.empty .default).run (mixedSteps.take 4)).tally.lines = 5 ∧
      ((Store.empty .default).run (mixedSteps.take 4)).tally.AtMost
        ((Store.empty .default).run mixedSteps).tally ∧
      (((Store.empty .default).run mixedSteps).finish.stream .ttt).length ≤
        (((Store.empty .default).run mixedSteps).finish.tally.entries .ttt).toNat ∧
      ((Store.empty .default).run mixedSteps).finish.isEmpty = false := by
  have hfit : CountersFit .default (arrivals mixedSteps) := by
    refine ⟨by decide +kernel, fun kind => ?_⟩
    cases kind <;> decide +kernel
  have hinitial : mixedSteps.take 4 <+: mixedSteps := List.take_prefix 4 mixedSteps
  obtain ⟨hpoints, _, hstreams, hempty, _⟩ := every_line_accounted .default mixedSteps hfit
  refine ⟨hfit, hinitial, (hpoints _ hinitial).1, by decide +kernel,
    (hpoints _ (List.prefix_refl mixedSteps)).2 _ hinitial, (hstreams .ttt).2, ?_⟩
  refine Bool.eq_false_iff.mpr fun h => ?_
  have hnone : accepted .default .ttt (arrivals mixedSteps) ≠ [] := by decide +kernel
  exact hnone (hempty.mp h .ttt)

end LatencyLog
