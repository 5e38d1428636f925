import LatencyLog.Proofs.Files.Faults
import LatencyLog.Proofs.Store.Arrivals

/-!
# Files that cannot be read

A file that cannot be read leaves the store as it was. Most of them are refused when they are opened. A
directory is opened, and it is the reader that fails then, but before the first byte, so the store has
taken nothing (`addFile_eq_addOpened`).

A run can therefore be made without the operations that fail: the store is the same at the end, and what
the others give back is the same on the way (`told_filter`). Reading a list of files is stricter. It stops
at the first that cannot be read, and that one is all that the error depends on
(`result_readFiles_eq_error_iff`).
-/

namespace LatencyLog

/-! ## Opening, then reading -/

/-- What opening a file gives: a source. That of a directory breaks off before it gives anything. -/
def FileSystem.opened (fs : FileSystem) (path : String) : Except FileError Source :=
  (fs.resolve path).map fun
    | .file content => ⟨content, false⟩
    | .directory _ => ⟨[], true⟩

/-- Adds the lines of a file in two steps, either of which may fail. -/
def Store.addOpened (s : Store) (fs : FileSystem) (path : String) : Store × Except ReadError Tally :=
  match fs.opened path with
  | .error cause => (s, .error ⟨path, cause⟩)
  | .ok source =>
    match s.addSource source with
    | (s', some tally) => (s', .ok tally)
    | (s', none) => (s', .error ⟨path, .isADirectory⟩)

/-- **It does not matter whether a file fails when it is opened or when it is read.** -/
theorem Store.addFile_eq_addOpened (s : Store) (fs : FileSystem) (path : String) :
    s.addFile fs path = s.addOpened fs path := by
  rw [addOpened, FileSystem.opened]
  cases h : fs.resolve path with
  | error cause =>
    rw [addFile_error (show fs.read path = .error cause by rw [FileSystem.read, h]; rfl)]
    rfl
  | ok tree =>
    cases tree with
    | file content =>
      rw [addFile_ok (show fs.read path = .ok content by rw [FileSystem.read, h]; rfl)]
      rfl
    | directory entries =>
      rw [addFile_error (show fs.read path = .error .isADirectory by rw [FileSystem.read, h]; rfl)]
      rfl

/-! ## Operations that fail -/

/-- An operation on a file that cannot be read. -/
def Step.fails : Step → Bool
  | .file fs path =>
    match fs.read path with
    | .ok _ => false
    | .error _ => true
  | _ => false

theorem Step.fails_file_iff {fs : FileSystem} {path : String} :
    (Step.file fs path).fails = true ↔ ∃ cause, fs.read path = .error cause := by
  rw [fails]
  cases fs.read path with
  | ok bytes => exact iff_of_false (fun h => nomatch h) (fun ⟨_, h⟩ => nomatch h)
  | error cause => exact iff_of_true rfl ⟨cause, rfl⟩

theorem Step.exists_of_fails {st : Step} (h : st.fails = true) :
    ∃ fs path cause, st = .file fs path ∧ fs.read path = .error cause := by
  cases st with
  | file fs path =>
    obtain ⟨cause, hread⟩ := fails_file_iff.mp h
    exact ⟨fs, path, cause, rfl, hread⟩
  | _ => cases h

namespace Store

theorem step_of_fails {st : Step} (h : st.fails = true) (s : Store) : s.step st = s := by
  obtain ⟨fs, path, cause, rfl, hread⟩ := Step.exists_of_fails h
  rw [step, addFile_error hread]

inductive Answer where
  | pushed
  | line (outcome : Except Discard Unit)
  | source (tally : Option Tally)
  | file (outcome : Except ReadError Tally)

def answer (s : Store) : Step → Answer
  | .push _ => .pushed
  | .line text => .line (s.addLine text).2
  | .source src => .source (s.addSource src).2
  | .file fs path => .file (s.addFile fs path).2

/-- The operations of a run, each with what it gave back. -/
def told (s : Store) : List Step → List (Step × Answer)
  | [] => []
  | st :: steps => (st, s.answer st) :: (s.step st).told steps

/-! ## Runs -/

/-- **Without the operations that fail a run leaves the same store.** -/
theorem run_filter (s : Store) (steps : List Step) :
    s.run (steps.filter fun st => !st.fails) = s.run steps := by
  induction steps generalizing s with
  | nil => rfl
  | cons st steps ih =>
    show _ = (s.step st).run steps
    cases h : st.fails with
    | true => rw [List.filter_cons_of_neg (by simp [h]), ih, step_of_fails h]
    | false =>
      rw [List.filter_cons_of_pos (by simp [h])]
      exact ih (s.step st)

/-- **Without the operations that fail the others give back the same.** -/
theorem told_filter (s : Store) (steps : List Step) :
    (s.told steps).filter (fun told => !told.1.fails) =
      s.told (steps.filter fun st => !st.fails) := by
  induction steps generalizing s with
  | nil => rfl
  | cons st steps ih =>
    rw [told]
    -- What fails leaves the store as it is, and so what the others are done to.
    cases h : st.fails with
    | true => rw [List.filter_cons_of_neg (by simp [h]), List.filter_cons_of_neg (by simp [h]), ih,
        step_of_fails h]
    | false => rw [List.filter_cons_of_pos (by simp [h]), List.filter_cons_of_pos (by simp [h]), ih,
        told]

theorem eq_of_mem_told {s : Store} {steps : List Step} {fs : FileSystem} {path : String} {a : Answer}
    (h : (Step.file fs path, a) ∈ s.told steps) {cause : FileError} (hread : fs.read path = .error cause) :
    a = .file (.error ⟨path, cause⟩) := by
  induction steps generalizing s with
  | nil => cases h
  | cons st steps ih =>
    rcases List.mem_cons.mp h with h | h
    · obtain ⟨rfl, rfl⟩ := Prod.mk.injEq .. ▸ h
      rw [answer, addFile_error hread]
    · exact ih h

/-! ## Lists of files -/

/-- **The error of a list is that of the first file that cannot be read.** -/
theorem result_readFiles_eq_error_iff {fs : FileSystem} {paths : List String} {s : Store} {e : ReadError} :
    (s.readFiles fs paths).result = .error e ↔ ∃ before after, paths = before ++ e.path :: after ∧
      (∀ p ∈ before, ∃ bytes, fs.read p = .ok bytes) ∧ fs.read e.path = .error e.cause := by
  constructor
  · intro h
    rcases first_unreadable_or_readable fs paths with ⟨before, p, after, cause, rfl, hbefore, hread⟩ | hall
    · rw [readFiles_of_first hbefore hread] at h
      cases h
      exact ⟨before, after, rfl, hbefore, hread⟩
    · rw [readFiles_of_readable hall] at h
      cases h
  · rintro ⟨before, after, rfl, hbefore, hread⟩
    exact readFiles_of_first hbefore hread after s

theorem result_readFiles_eq_ok_iff {fs : FileSystem} {paths : List String} {s : Store} {set : RecordSet} :
    (s.readFiles fs paths).result = .ok set ↔ (∀ p ∈ paths, ∃ bytes, fs.read p = .ok bytes) ∧
      set = (s.run (paths.map (Step.file fs))).finish := by
  constructor
  · intro h
    rcases first_unreadable_or_readable fs paths with ⟨before, p, after, cause, rfl, hbefore, hread⟩ | hall
    · rw [readFiles_of_first hbefore hread] at h
      cases h
    · rw [readFiles_of_readable hall] at h
      cases h
      exact ⟨hall, rfl⟩
  · rintro ⟨hall, rfl⟩
    exact readFiles_of_readable hall s

/-- What the files hold makes no difference to an error, and neither does the configuration. -/
theorem result_readFiles_error_congr {fs fs' : FileSystem} {paths : List String}
    (hsame : ∀ p ∈ paths, ∀ cause, fs.read p = .error cause ↔ fs'.read p = .error cause) {s s' : Store}
    {e : ReadError} (h : (s.readFiles fs paths).result = .error e) :
    (s'.readFiles fs' paths).result = .error e := by
  obtain ⟨before, after, rfl, hbefore, hread⟩ := result_readFiles_eq_error_iff.mp h
  refine result_readFiles_eq_error_iff.mpr ⟨before, after, rfl, ?_, (hsame _ (by simp) _).mp hread⟩
  intro p hp
  obtain ⟨bytes, hbytes⟩ := hbefore p hp
  cases hread' : fs'.read p with
  | ok bytes' => exact ⟨bytes', rfl⟩
  | error cause =>
    cases hbytes.symm.trans ((hsame p (List.mem_append_left _ hp) cause).mpr hread')

/-- **No operation on a file that cannot be read leaves a trace**, in whatever operations it is among. It
gives back the error of its path, with the cause for which the file cannot be read, and it leaves the store
as it was, whether it fails when the file is opened or when it is read. So without such operations the others
give back the same, and the record set is the same.

A list of files is read if every one can be, and then it is the operations on them. If not, the first that
cannot be read is the error, whatever the others hold. -/
theorem failed_files_leave_no_trace :
    (∀ (fs : FileSystem) (path : String) (cause : FileError),
      (fs.read path = .error cause ↔ fs.Unreadable path cause) ∧
      (fs.read path = .error cause → ∀ s : Store, s.addFile fs path = (s, .error ⟨path, cause⟩))) ∧
    (∀ (s : Store) (fs : FileSystem) (path : String), s.addFile fs path = s.addOpened fs path) ∧
    (∀ (s : Store) (steps : List Step),
      (∀ fs path cause a, fs.read path = .error cause → (Step.file fs path, a) ∈ s.told steps →
        a = .file (.error ⟨path, cause⟩)) ∧
      (s.told steps).filter (fun told => !told.1.fails) = s.told (steps.filter fun st => !st.fails) ∧
      s.run (steps.filter fun st => !st.fails) = s.run steps ∧
      (s.run (steps.filter fun st => !st.fails)).finish = (s.run steps).finish) ∧
    (∀ (config : Config) (fs : FileSystem) (paths : List String),
      (∀ set, ingest config fs paths = .ok set ↔ (∀ p ∈ paths, ∃ bytes, fs.read p = .ok bytes) ∧
        set = ((empty config.frequency).run (paths.map (Step.file fs))).finish) ∧
      ∀ e, ingest config fs paths = .error e ↔ ∃ before after, paths = before ++ e.path :: after ∧
        (∀ p ∈ before, ∃ bytes, fs.read p = .ok bytes) ∧ fs.read e.path = .error e.cause) ∧
    ∀ (config config' : Config) (fs fs' : FileSystem) (paths : List String),
      (∀ p ∈ paths, ∀ cause, fs.read p = .error cause ↔ fs'.read p = .error cause) →
      ∀ e, ingest config fs paths = .error e ↔ ingest config' fs' paths = .error e := by
  refine ⟨?_, addFile_eq_addOpened, ?_, ?_, ?_⟩
  · intro fs path cause
    exact ⟨FileSystem.read_eq_error_iff, fun h s => addFile_error h⟩
  · intro s steps
    have hrun := s.run_filter steps
    exact ⟨fun fs path cause a hread hmem => eq_of_mem_told hmem hread, s.told_filter steps, hrun,
      congrArg finish hrun⟩
  · intro config fs paths
    exact ⟨fun set => result_readFiles_eq_ok_iff, fun e => result_readFiles_eq_error_iff⟩
  · intro config config' fs fs' paths hsame e
    exact ⟨result_readFiles_error_congr hsame,
      result_readFiles_error_congr fun p hp cause => (hsame p hp cause).symm⟩

/-- A log with one reading, and a directory. -/
def logAndDirectory : FileSystem :=
  ⟨(FileTree.empty.put ["a.log"] (.file (Text.Utf8.encode "10:00:00 TTT in 1\n".toList))).put ["old"] .empty,
    []⟩

/-- The same with no reading in the log. -/
def emptyLogAndDirectory : FileSystem :=
  ⟨(FileTree.empty.put ["a.log"] (.file [])).put ["old"] .empty, []⟩

/-- The log twice, and between the two the three ways in which a file is not there. -/
def logTwice : List Step :=
  ["a.log", "none.log", "a.log/b.log", "old", "a.log"].map (Step.file logAndDirectory)

theorem failed_files_leave_no_trace_logTwice :
    (∀ s : Store, s.addFile logAndDirectory "none.log" = (s, .error ⟨"none.log", .notFound⟩) ∧
      s.addFile logAndDirectory "a.log/b.log" = (s, .error ⟨"a.log/b.log", .notADirectory⟩) ∧
      s.addFile logAndDirectory "old" = (s, .error ⟨"old", .isADirectory⟩)) ∧
    (∃ a, (Step.file logAndDirectory "old", a) ∈ (empty .default).told logTwice ∧
      a = .file (.error ⟨"old", .isADirectory⟩)) ∧
    ((empty .default).run logTwice).finish =
      ((empty .default).run (["a.log", "a.log"].map (Step.file logAndDirectory))).finish ∧
    ingest .default logAndDirectory ["a.log", "old", "none.log"] = .error ⟨"old", .isADirectory⟩ ∧
    ingest .default emptyLogAndDirectory ["a.log", "old", "none.log"] = .error ⟨"old", .isADirectory⟩ := by
  obtain ⟨hfile, _, hrun, hlist, hothers⟩ := failed_files_leave_no_trace
  have hlog : logAndDirectory.read "a.log" =
      .ok (Text.Utf8.encode "10:00:00 TTT in 1\n".toList) := by decide +kernel
  have hmissing : logAndDirectory.read "none.log" = .error .notFound := by decide +kernel
  have hbelow : logAndDirectory.read "a.log/b.log" = .error .notADirectory := by decide +kernel
  have hdirectory : logAndDirectory.read "old" = .error .isADirectory := by decide +kernel
  have herror : ingest .default logAndDirectory ["a.log", "old", "none.log"] =
      .error ⟨"old", .isADirectory⟩ :=
    ((hlist .default logAndDirectory _).2 _).mpr ⟨["a.log"], ["none.log"], rfl,
      List.forall_mem_singleton.mpr ⟨_, hlog⟩, hdirectory⟩
  refine ⟨fun s => ⟨(hfile _ _ _).2 hmissing s, (hfile _ _ _).2 hbelow s, (hfile _ _ _).2 hdirectory s⟩,
    ?_, ?_, herror, ?_⟩
  · obtain ⟨a, hmem⟩ : ∃ a, (Step.file logAndDirectory "old", a) ∈ (empty .default).told logTwice :=
      ⟨_, List.mem_cons_of_mem _ (List.mem_cons_of_mem _ (List.mem_cons_of_mem _ (List.mem_cons_self ..)))⟩
    exact ⟨a, hmem, (hrun _ _).1 _ _ _ a hdirectory hmem⟩
  · have hkept : logTwice.filter (fun st => !st.fails) = ["a.log", "a.log"].map (Step.file logAndDirectory) := by
      simp [logTwice, Step.fails, hlog, hmissing, hbelow, hdirectory]
    rw [← hkept]
    exact (hrun (empty .default) logTwice).2.2.2.symm
  · have hlog' : emptyLogAndDirectory.read "a.log" = .ok [] := by decide +kernel
    have hmissing' : emptyLogAndDirectory.read "none.log" = .error .notFound := by decide +kernel
    have hdirectory' : emptyLogAndDirectory.read "old" = .error .isADirectory := by decide +kernel
    refine (hothers .default .default logAndDirectory emptyLogAndDirectory _ ?_ _).mp herror
    simp [hlog, hlog', hmissing, hmissing', hdirectory, hdirectory']

end Store

end LatencyLog
