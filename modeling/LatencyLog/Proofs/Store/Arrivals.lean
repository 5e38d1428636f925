import LatencyLog.Analysis
import Mathlib.Algebra.BigOperators.Group.List.Basic

/-!
# What a store holds after a run

A store can be fed in four ways: an entry that was made elsewhere, a line, a source of bytes, a file.
For a proof these are four ways to say one thing. Each operation delivers a list of *arrivals*, each
of them an entry or a line, and the store takes them one at a time (`run_eq_takeAll`). So what a run
leaves is read off its arrivals alone:

* each of the two streams has grown by the records that were accepted, in the order of their arrival
  (`gathered_run`);
* the tally has grown by the sum of what the arrivals count (`tally_run`). Tallies add up in any order,
  being a commutative monoid, so the sum does not know in which order they came.

Everything about whole runs goes through these two equations, and no proof behind them opens an
operation of the store again.
-/

namespace LatencyLog

/-! ## Tallies as numbers -/

namespace Tally

instance : Zero Tally := ⟨zero⟩

theorem zero_def : (0 : Tally) = ⟨0, 0, 0, 0, 0, 0, 0⟩ := rfl

theorem add_def (a b : Tally) :
    a + b = ⟨a.lines + b.lines, a.rdtsc + b.rdtsc, a.ttt + b.ttt, a.badFieldCount + b.badFieldCount,
      a.badValue + b.badValue, a.badTimestamp + b.badTimestamp, a.unknownKind + b.unknownKind⟩ := rfl

instance : AddCommMonoid Tally where
  add_assoc a b c := by simp only [add_def, UInt64.add_assoc]
  zero_add a := by simp only [add_def, zero_def, UInt64.zero_add]
  add_zero a := by simp only [add_def, zero_def, UInt64.add_zero]
  add_comm a b := by simp only [add_def, UInt64.add_comm]
  nsmul := nsmulRec

theorem countLine_eq_add (t : Tally) : t.countLine = t + countLine 0 := by
  simp only [countLine, add_def, zero_def, UInt64.zero_add, UInt64.add_zero]

theorem countEntry_eq_add (t : Tally) (k : EventKind) : t.countEntry k = t + countEntry 0 k := by
  cases k <;> simp only [countEntry, add_def, zero_def, UInt64.zero_add, UInt64.add_zero]

theorem countDiscard_eq_add (t : Tally) (d : Discard) : t.countDiscard d = t + countDiscard 0 d := by
  cases d <;> simp only [countDiscard, add_def, zero_def, UInt64.zero_add, UInt64.add_zero]

end Tally

/-! ## Operations -/

/-- One operation on a store. A file is read from the file system as it is at that moment. -/
inductive Step where
  | push (entry : Entry)
  | line (text : List Char)
  | source (source : Source)
  | file (fs : FileSystem) (path : String)

/-- The store behind an operation, whatever its outcome is. -/
def Store.step (s : Store) : Step → Store
  | .push e => s.push e
  | .line text => (s.addLine text).1
  | .source src => (s.addSource src).1
  | .file fs path => (s.addFile fs path).1

/-- The store behind a sequence of operations. -/
def Store.run (s : Store) (steps : List Step) : Store := steps.foldl Store.step s

def Store.gathered (s : Store) : EventKind → List Record
  | .rdtsc => s.rdtsc.toList
  | .ttt => s.ttt.toList

def RecordSet.stream (set : RecordSet) : EventKind → List Record
  | .rdtsc => set.rdtsc
  | .ttt => set.ttt

/-! ## Arrivals -/

/-- What reaches a store. -/
inductive Arrival where
  | entry (entry : Entry)
  | line (text : List Char)

/-- The lines of bytes, each decoded on its own. -/
def Arrival.ofByteLines (lines : List (List UInt8)) : List Arrival :=
  lines.map fun line => .line (Text.Utf8.decodeLossy line)

/-- What an operation delivers: of a source that breaks off the lines that had ended, and nothing of
a file that cannot be read. -/
def Step.arrivals : Step → List Arrival
  | .push e => [.entry e]
  | .line text => [.line text]
  | .source src =>
    Arrival.ofByteLines (if src.broken then Text.endedLines src.bytes else Text.byteLines src.bytes)
  | .file fs path =>
    match fs.read path with
    | .ok bytes => Arrival.ofByteLines (Text.byteLines bytes)
    | .error _ => []

/-- What a sequence of operations delivers. -/
def arrivals (steps : List Step) : List Arrival := steps.flatMap Step.arrivals

namespace Arrival

/-- The entry that an arrival is, or the cause for which it is skipped. -/
def read (f : Frequency) : Arrival → Except Discard Entry
  | .entry e => .ok e
  | .line text => Entry.ofLine f text

/-- The record that an arrival adds to the stream of a kind, if it does. -/
def record? (f : Frequency) (kind : EventKind) (a : Arrival) : Option Record :=
  match a.read f with
  | .ok e => if e.kind = kind then some e.record else none
  | .error _ => none

/-- What a line counts as a line; an entry that was made elsewhere has none. -/
def lineTally : Arrival → Tally
  | .entry _ => 0
  | .line _ => Tally.countLine 0

/-- What an arrival counts. -/
def tally (f : Frequency) (a : Arrival) : Tally :=
  match a.read f with
  | .ok e => a.lineTally + Tally.countEntry 0 e.kind
  | .error d => a.lineTally + Tally.countDiscard 0 d

end Arrival

/-- The records of a kind among arrivals, in the order of their arrival. -/
def accepted (f : Frequency) (kind : EventKind) (as : List Arrival) : List Record :=
  as.filterMap (Arrival.record? f kind)

theorem accepted_cons (f : Frequency) (kind : EventKind) (a : Arrival) (as : List Arrival) :
    accepted f kind (a :: as) = (a.record? f kind).toList ++ accepted f kind as := by
  rw [accepted, List.filterMap_cons]
  cases a.record? f kind <;> rfl

/-! ## One arrival -/

namespace Store

/-- Takes what has arrived. -/
def take (s : Store) : Arrival → Store
  | .entry e => s.push e
  | .line text => (s.addLine text).1

theorem push_frequency (s : Store) (e : Entry) : (s.push e).frequency = s.frequency := by
  unfold push
  split <;> rfl

theorem push_tally (s : Store) (e : Entry) :
    (s.push e).tally = s.tally + Tally.countEntry 0 e.kind := by
  rw [← Tally.countEntry_eq_add]
  unfold push
  split <;> rename_i h <;> rw [h]

theorem push_gathered (s : Store) (e : Entry) (kind : EventKind) :
    (s.push e).gathered kind = s.gathered kind ++ if e.kind = kind then [e.record] else [] := by
  unfold push
  cases hk : e.kind <;> cases kind <;> simp [gathered]

theorem addLine_ok {s : Store} {text : List Char} {e : Entry}
    (h : Entry.ofLine s.frequency text = .ok e) :
    s.addLine text = (({ s with tally := s.tally.countLine } : Store).push e, .ok ()) := by
  rw [addLine, h]

theorem addLine_error {s : Store} {text : List Char} {d : Discard}
    (h : Entry.ofLine s.frequency text = .error d) :
    s.addLine text = ({ s with tally := s.tally.countLine.countDiscard d }, .error d) := by
  rw [addLine, h]

/-- The store with another tally, which is nothing to its streams. -/
def withTally (s : Store) (t : Tally) : Store := { s with tally := t }

@[simp]
theorem withTally_gathered (s : Store) (t : Tally) (kind : EventKind) :
    (s.withTally t).gathered kind = s.gathered kind := by
  cases kind <;> rfl

-- What an arrival does depends on how it reads, and no longer on what it was.

theorem take_of_ok {s : Store} {a : Arrival} {e : Entry} (h : a.read s.frequency = .ok e) :
    s.take a = (s.withTally (s.tally + a.lineTally)).push e := by
  cases a with
  | entry e' =>
    cases h
    show s.push e = (s.withTally (s.tally + 0)).push e
    rw [add_zero]
    rfl
  | line text =>
    show (s.addLine text).1 = _
    rw [addLine_ok h, Tally.countLine_eq_add]
    rfl

theorem take_of_error {s : Store} {a : Arrival} {d : Discard} (h : a.read s.frequency = .error d) :
    s.take a = s.withTally (s.tally + a.lineTally + Tally.countDiscard 0 d) := by
  cases a with
  | entry e => cases h
  | line text =>
    show (s.addLine text).1 = _
    rw [addLine_error h, Tally.countDiscard_eq_add, Tally.countLine_eq_add]
    rfl

theorem take_frequency (s : Store) (a : Arrival) : (s.take a).frequency = s.frequency := by
  cases h : a.read s.frequency with
  | ok e =>
    rw [take_of_ok h, push_frequency]
    rfl
  | error d =>
    rw [take_of_error h]
    rfl

/-- **An arrival adds its record to the stream of its kind, and leaves the other alone.** -/
theorem take_gathered (s : Store) (a : Arrival) (kind : EventKind) :
    (s.take a).gathered kind = s.gathered kind ++ (a.record? s.frequency kind).toList := by
  cases h : a.read s.frequency with
  | ok e =>
    rw [take_of_ok h, push_gathered, withTally_gathered, Arrival.record?, h]
    by_cases hk : e.kind = kind <;> simp [hk]
  | error d =>
    rw [take_of_error h, withTally_gathered, Arrival.record?, h]
    exact (List.append_nil _).symm

/-- **An arrival adds what it counts.** -/
theorem take_tally (s : Store) (a : Arrival) : (s.take a).tally = s.tally + a.tally s.frequency := by
  cases h : a.read s.frequency with
  | ok e =>
    rw [take_of_ok h, push_tally, Arrival.tally, h, ← add_assoc]
    rfl
  | error d =>
    rw [take_of_error h, Arrival.tally, h, ← add_assoc]
    rfl

/-! ## All arrivals -/

def takeAll (s : Store) (as : List Arrival) : Store := as.foldl take s

theorem takeAll_append (s : Store) (as bs : List Arrival) :
    s.takeAll (as ++ bs) = (s.takeAll as).takeAll bs := List.foldl_append

theorem addByteLines_eq_takeAll (s : Store) (lines : List (List UInt8)) :
    s.addByteLines lines = s.takeAll (Arrival.ofByteLines lines) := by
  rw [addByteLines, takeAll, Arrival.ofByteLines, List.foldl_map]
  rfl

theorem addFile_ok {s : Store} {fs : FileSystem} {path : String} {bytes : List UInt8}
    (h : fs.read path = .ok bytes) :
    s.addFile fs path = ((s.addBytes bytes).1, .ok (s.addBytes bytes).2) := by
  rw [addFile, h]

theorem addFile_error {s : Store} {fs : FileSystem} {path : String} {cause : FileError}
    (h : fs.read path = .error cause) : s.addFile fs path = (s, .error ⟨path, cause⟩) := by
  rw [addFile, h]

/-- **An operation is its arrivals, taken in turn.** -/
theorem step_eq_takeAll (s : Store) (st : Step) : s.step st = s.takeAll st.arrivals := by
  cases st with
  | push e => rfl
  | line text => rfl
  | source src =>
    by_cases hbroken : src.broken = true
    · rw [step, addSource, if_pos hbroken, Step.arrivals, if_pos hbroken]
      exact addByteLines_eq_takeAll s _
    · rw [step, addSource, if_neg hbroken, Step.arrivals, if_neg hbroken]
      exact addByteLines_eq_takeAll s _
  | file fs path =>
    cases h : fs.read path with
    | ok bytes =>
      rw [step, addFile_ok h, Step.arrivals, h]
      exact addByteLines_eq_takeAll s _
    | error cause =>
      rw [step, addFile_error h, Step.arrivals, h]
      rfl

/-- **A run is its arrivals, taken in turn.** -/
theorem run_eq_takeAll (s : Store) (steps : List Step) :
    s.run steps = s.takeAll (arrivals steps) := by
  induction steps generalizing s with
  | nil => rfl
  | cons st steps ih =>
    show (s.step st).run steps = s.takeAll (st.arrivals ++ arrivals steps)
    rw [ih, step_eq_takeAll, takeAll_append]

theorem takeAll_gathered (s : Store) (as : List Arrival) (kind : EventKind) :
    (s.takeAll as).gathered kind = s.gathered kind ++ accepted s.frequency kind as := by
  induction as generalizing s with
  | nil => exact (List.append_nil _).symm
  | cons a as ih =>
    -- What the rest adds depends on the frequency alone, and that is as it was.
    show ((s.take a).takeAll as).gathered kind = _
    rw [ih, take_gathered, take_frequency, List.append_assoc, accepted_cons]

theorem takeAll_tally (s : Store) (as : List Arrival) :
    (s.takeAll as).tally = s.tally + (as.map (Arrival.tally s.frequency)).sum := by
  induction as generalizing s with
  | nil => exact (add_zero _).symm
  | cons a as ih =>
    show ((s.take a).takeAll as).tally = _
    rw [ih, take_tally, take_frequency, List.map_cons, List.sum_cons, add_assoc]

/-! ## Runs -/

/-- **Streams grow by what is accepted.** -/
theorem gathered_run (s : Store) (steps : List Step) (kind : EventKind) :
    (s.run steps).gathered kind = s.gathered kind ++ accepted s.frequency kind (arrivals steps) := by
  rw [run_eq_takeAll, takeAll_gathered]

/-- **The tally grows by what arrivals count.** -/
theorem tally_run (s : Store) (steps : List Step) :
    (s.run steps).tally = s.tally + ((arrivals steps).map (Arrival.tally s.frequency)).sum := by
  rw [run_eq_takeAll, takeAll_tally]

theorem finish_stream (s : Store) (kind : EventKind) :
    s.finish.stream kind = RecordSet.normalize (s.gathered kind) := by
  cases kind <;> rfl

/-- **A stream is the final form of what was accepted of its kind.** -/
theorem stream_run_empty (f : Frequency) (steps : List Step) (kind : EventKind) :
    ((empty f).run steps).finish.stream kind =
      RecordSet.normalize (accepted f kind (arrivals steps)) := by
  have hempty : (empty f).gathered kind = [] := by cases kind <;> rfl
  rw [finish_stream, gathered_run, hempty, List.nil_append]
  rfl

theorem tally_run_empty (f : Frequency) (steps : List Step) :
    ((empty f).run steps).finish.tally = ((arrivals steps).map (Arrival.tally f)).sum := by
  show ((empty f).run steps).tally = _
  rw [tally_run]
  exact zero_add _

/-! ## Files -/

/-- Of the files of a list there is a first that cannot be read, or all can. -/
theorem first_unreadable_or_readable (fs : FileSystem) (paths : List String) :
    (∃ before p after cause, paths = before ++ p :: after ∧
        (∀ q ∈ before, ∃ bytes, fs.read q = .ok bytes) ∧ fs.read p = .error cause) ∨
      ∀ p ∈ paths, ∃ bytes, fs.read p = .ok bytes := by
  induction paths with
  | nil => exact Or.inr (List.forall_mem_nil _)
  | cons p paths ih =>
    cases hread : fs.read p with
    | error cause => exact Or.inl ⟨[], p, paths, cause, rfl, List.forall_mem_nil _, hread⟩
    | ok bytes =>
      rcases ih with ⟨before, q, after, cause, rfl, hbefore, hq⟩ | hrest
      · exact Or.inl ⟨p :: before, q, after, cause, rfl,
          List.forall_mem_cons.mpr ⟨⟨bytes, hread⟩, hbefore⟩, hq⟩
      · exact Or.inr (List.forall_mem_cons.mpr ⟨⟨bytes, hread⟩, hrest⟩)

/-- Files that can be read are operations like any other. -/
theorem readFiles_append {fs : FileSystem} {before : List String}
    (h : ∀ p ∈ before, ∃ bytes, fs.read p = .ok bytes) (after : List String) (s : Store) :
    (s.readFiles fs (before ++ after)).result =
      ((s.run (before.map (Step.file fs))).readFiles fs after).result := by
  induction before generalizing s with
  | nil => rfl
  | cons p before ih =>
    obtain ⟨⟨bytes, hp⟩, h⟩ := List.forall_mem_cons.mp h
    have hstep : s.step (.file fs p) = (s.addBytes bytes).1 := by rw [step, addFile_ok hp]
    rw [List.cons_append, readFiles, addFile_ok hp]
    show ((s.addBytes bytes).1.readFiles fs (before ++ after)).result =
      (((s.step (.file fs p)).run (before.map (Step.file fs))).readFiles fs after).result
    rw [ih h, hstep]

theorem readFiles_of_readable {fs : FileSystem} {paths : List String}
    (h : ∀ p ∈ paths, ∃ bytes, fs.read p = .ok bytes) (s : Store) :
    (s.readFiles fs paths).result = .ok (s.run (paths.map (Step.file fs))).finish := by
  have happend := readFiles_append h [] s
  rwa [List.append_nil] at happend

theorem readFiles_of_first {fs : FileSystem} {before : List String} {p : String} {cause : FileError}
    (h : ∀ q ∈ before, ∃ bytes, fs.read q = .ok bytes) (hread : fs.read p = .error cause)
    (after : List String) (s : Store) :
    (s.readFiles fs (before ++ p :: after)).result = .error ⟨p, cause⟩ := by
  rw [readFiles_append h, readFiles, addFile_error hread]
  rfl

end Store

theorem ingest_of_readable {config : Config} {fs : FileSystem} {paths : List String}
    (h : ∀ p ∈ paths, ∃ bytes, fs.read p = .ok bytes) :
    ingest config fs paths =
      .ok ((Store.empty config.frequency).run (paths.map (Step.file fs))).finish :=
  Store.readFiles_of_readable h _

end LatencyLog
