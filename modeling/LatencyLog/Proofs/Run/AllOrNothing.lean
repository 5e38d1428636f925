import LatencyLog.Proofs.Glob.LongPaths
import LatencyLog.Proofs.Glob.Order
import LatencyLog.Proofs.FirstOccurrence
import LatencyLog.Proofs.Store.NormalForm
import LatencyLog.Proofs.Text.Times
import LatencyLog.Run

/-!
# All or nothing

A run has many ways to fail, and all but one lie before its first output. Those are gathered in `Halts`, and
there is nothing else to them: a run in which none of them happens is `Ready`, and then configuration, found
paths and files are what the report is made of (`ofInvocation_cases`). The two exclude each other, so which
of them a run is need not be asked of the run itself (`all_or_nothing`).

Nothing is said of how the cause of a failure is chosen among several: whatever it is, the exit status is the
same, standard output is empty, and no file has changed. And a run without a filter for its journal, which
does not even begin, is none of these.

A pattern can fail in two ways. It may mean nothing; or it is well formed, but leads into a directory whose
path is too long for its entries to be asked for. The latter takes no file that could be found, nor one that
could not be read (`withheld_of_unlisted`).

What a pattern finds is read as it comes. That is the order of the names for every tree, unless components
behind a `**` or a wildcard for `.` and `..` find otherwise; then the report is not the one on the sorted files
(`reportsUnsorted_nestedLogs`).
-/

namespace LatencyLog

/-! ## What stops a run -/

/-- Why a run puts nothing out. -/
inductive Halts (fs : FileSystem) (i : Invocation) : Prop where
  | config {e : ConfigError} (load : Config.load fs i.config i.frequency = .error e)
  | malformed {p : String} (mem : p ∈ i.patterns) {e : Glob.PatternError}
    (read : Glob.Pattern.read? p = .error e)
  | unlisted {p : String} (mem : p ∈ i.patterns) {e : Glob.ListingError}
    (paths : Glob.paths fs p = .error (.unlisted p e))
  | unreadable {p : String} (mem : p ∈ i.patterns) {paths : List String} (found : Glob.paths fs p = .ok paths)
    {path : String} (path_mem : path ∈ paths) {e : FileError} (read : fs.read path = .error e)

/-- The run is configured, its patterns have found paths, and there is a file to read at each of them. -/
structure Ready (fs : FileSystem) (i : Invocation) (config : Config) (found : List (List String)) :
    Prop where
  load : Config.load fs i.config i.frequency = .ok config
  matched : List.Forall₂ (fun p paths => Glob.paths fs p = .ok paths) i.patterns found
  readable : ∀ path ∈ found.flatten, ∃ bytes, fs.read path = .ok bytes

/-- Nothing is put out, and nothing has changed. -/
structure Withheld (fs : FileSystem) (run : Run) : Prop where
  exit : run.exit = 1
  output : run.output = ""
  files : run.files = fs

variable {fs : FileSystem} {i : Invocation} {config : Config} {found : List (List String)}

theorem Glob.paths_eq_error {p : String} {e : Glob.Failure} (h : Glob.paths fs p = .error e) :
    (∃ cause, Glob.Pattern.read? p = .error cause) ∨ ∃ cause, e = .unlisted p cause := by
  unfold Glob.paths at h
  split at h
  case h_1 cause hread => exact Or.inl ⟨cause, hread⟩
  case h_2 pattern _ =>
    cases hpaths : pattern.paths fs with
    | error cause =>
      rw [hpaths] at h
      exact Or.inr ⟨cause, (Except.error.inj h).symm⟩
    | ok paths =>
      rw [hpaths] at h
      cases h

theorem Halts.of_paths_eq_error {p : String} (hp : p ∈ i.patterns) {e : Glob.Failure}
    (h : Glob.paths fs p = .error e) : Halts fs i := by
  rcases Glob.paths_eq_error h with ⟨cause, hread⟩ | ⟨cause, rfl⟩
  · exact .malformed hp hread
  · exact .unlisted hp h

theorem Ready.not_halts (h : Ready fs i config found) : ¬ Halts fs i := by
  have hpaths : ∀ p ∈ i.patterns, ∃ paths ∈ found, Glob.paths fs p = .ok paths :=
    fun p hp => exists_right_of_mem h.matched hp
  intro hhalts
  cases hhalts with
  | config load => cases load.symm.trans h.load
  | malformed mem read =>
    obtain ⟨paths, _, hfound⟩ := hpaths _ mem
    rw [Glob.paths, read] at hfound
    cases hfound
  | unlisted mem hpaths' =>
    obtain ⟨paths, _, hfound⟩ := hpaths _ mem
    cases hpaths'.symm.trans hfound
  | unreadable mem hfound path_mem read =>
    obtain ⟨paths, hmem, hfound'⟩ := hpaths _ mem
    cases hfound.symm.trans hfound'
    obtain ⟨bytes, hbytes⟩ := h.readable _ (List.mem_flatten.mpr ⟨_, hmem, path_mem⟩)
    cases read.symm.trans hbytes

theorem Ready.unique {config' : Config} {found' : List (List String)} (h : Ready fs i config found)
    (h' : Ready fs i config' found') : config = config' ∧ found = found' := by
  have hload := h.load.symm.trans h'.load
  have hmatched := (mapM_eq_ok_iff.mpr h.matched).symm.trans (mapM_eq_ok_iff.mpr h'.matched)
  exact ⟨Except.ok.inj hload, Except.ok.inj hmatched⟩

/-! ## Looking for files -/

theorem Matching.ofPatterns_cases (fs : FileSystem) (patterns : List String) :
    (∃ p ∈ patterns, ∃ e, Glob.paths fs p = .error e ∧ (ofPatterns fs patterns).failed = some e) ∨
      (ofPatterns fs patterns).failed = none ∧
        ∃ found, List.Forall₂ (fun p paths => Glob.paths fs p = .ok paths) patterns found ∧
          (ofPatterns fs patterns).paths = found.flatten := by
  induction patterns with
  | nil => exact Or.inr ⟨rfl, [], .nil, rfl⟩
  | cons p patterns ih =>
    rw [ofPatterns]
    cases h : Glob.paths fs p with
    | error e => exact Or.inl ⟨p, List.mem_cons_self .., e, h, rfl⟩
    | ok paths =>
      rcases ih with ⟨p', hp', e, he, hfailed⟩ | ⟨hfailed, found, hfound, hpaths⟩
      · exact Or.inl ⟨p', List.mem_cons_of_mem _ hp', e, he, hfailed⟩
      · exact Or.inr ⟨hfailed, paths :: found, .cons h hfound, congrArg (paths ++ ·) hpaths⟩

/-! ## Reading files -/

theorem Store.readFiles_cases (fs : FileSystem) (paths : List String) (s : Store) :
    (∃ path ∈ paths, ∃ cause, fs.read path = .error cause ∧
        (s.readFiles fs paths).result = .error ⟨path, cause⟩) ∨
      ∀ path ∈ paths, ∃ bytes, fs.read path = .ok bytes := by
  rcases first_unreadable_or_readable fs paths with ⟨before, p, after, cause, rfl, hbefore, hread⟩ | hall
  · exact Or.inl ⟨p, by simp, cause, hread, readFiles_of_first hbefore hread after s⟩
  · exact Or.inr hall

/-! ## Runs -/

namespace Run

theorem ofCommand_of_read {arguments : List String} (h : Command.read arguments = .run i)
    (filter : Journal.Filter) :
    ofCommand fs (some filter) (Command.read arguments) = ofInvocation fs i := by
  rw [h]
  rfl

theorem withheld_stopped (fs : FileSystem) (events : List Event) {e : RunError} (h : e.exit = 1) :
    Withheld fs (stopped fs events e) := ⟨h, rfl, rfl⟩

/-- **A run is stopped with nothing put out, or it reports.** -/
theorem ofInvocation_cases (fs : FileSystem) (i : Invocation) :
    (Halts fs i ∧ Withheld fs (ofInvocation fs i)) ∨
      ∃ config found set events, Ready fs i config found ∧
        ingest config fs found.flatten = .ok set ∧
        ofInvocation fs i = reported fs events (analyze config set) i.json := by
  unfold ofInvocation
  cases hload : Config.load fs i.config i.frequency with
  | error e => exact Or.inl ⟨.config hload, withheld_stopped fs _ rfl⟩
  | ok config =>
    dsimp only
    unfold ofConfig
    dsimp only
    rcases Matching.ofPatterns_cases fs i.patterns with
      ⟨p, hp, e, he, hfailed⟩ | ⟨hfailed, found, hfound, hpaths⟩
    · rw [hfailed]
      exact Or.inl ⟨.of_paths_eq_error hp he, withheld_stopped fs _ rfl⟩
    · rw [hfailed, hpaths]
      dsimp only
      rcases Store.readFiles_cases fs found.flatten (Store.empty config.frequency) with
        ⟨path, hpath, cause, hread, hresult⟩ | hreadable
      · rw [hresult]
        obtain ⟨paths, hmem, hpath⟩ := List.mem_flatten.mp hpath
        obtain ⟨p, hp, hpaths⟩ := exists_right_of_mem hfound.flip hmem
        exact Or.inl ⟨.unreadable hp hpaths hpath hread, withheld_stopped fs _ rfl⟩
      · have hset : ingest config fs found.flatten = _ := ingest_of_readable hreadable
        rw [ingest] at hset
        rw [hset]
        exact Or.inr ⟨config, found, _, _, ⟨hload, hfound, hreadable⟩, hset, rfl⟩

theorem withheld_of_halts (h : Halts fs i) : Withheld fs (ofInvocation fs i) := by
  rcases ofInvocation_cases fs i with ⟨_, hwithheld⟩ | ⟨_, _, _, _, hready, _⟩
  · exact hwithheld
  · exact absurd h hready.not_halts

theorem reported_of_ready (h : Ready fs i config found) :
    ∃ set events, ingest config fs found.flatten = .ok set ∧
      ofInvocation fs i = reported fs events (analyze config set) i.json := by
  rcases ofInvocation_cases fs i with ⟨hhalts, _⟩ | ⟨_, _, set, events, hready, hset, hreported⟩
  · exact absurd hhalts h.not_halts
  · obtain ⟨rfl, rfl⟩ := h.unique hready
    exact ⟨set, events, hset, hreported⟩

theorem exists_ready (h : ¬ Halts fs i) : ∃ config found, Ready fs i config found := by
  rcases ofInvocation_cases fs i with ⟨hhalts, _⟩ | ⟨config, found, _, _, hready, _⟩
  · exact absurd hhalts h
  · exact ⟨config, found, hready⟩

/-! ## What is delivered -/

/-- What has come of a report besides its text. -/
inductive Delivered (fs : FileSystem) (report : Report) (run : Run) : (json : Option String) → Prop where
  /-- It was not asked for as JSON, and no file has changed. -/
  | shown (exit : run.exit = 0) (files : run.files = fs) : Delivered fs report run none
  /-- A file holds the report as JSON, and nothing else has changed. -/
  | written {path : String} (exit : run.exit = 0)
    (write : fs.write path (Text.Utf8.encode report.written) = .ok run.files)
    (read : run.files.read path = .ok (Text.Utf8.encode report.written))
    (elsewhere : ∃ place, run.files.place path = .ok place ∧ ∀ other ≠ place,
      (run.files.root.at? other).map FileTree.content = (fs.root.at? other).map FileTree.content) :
    Delivered fs report run (some path)
  /-- There is no such file, and none has changed. -/
  | lost {path : String} (exit : run.exit = 1) (files : run.files = fs) {e : FileError}
    (write : fs.write path (Text.Utf8.encode report.written) = .error e) :
    Delivered fs report run (some path)

theorem output_reported (fs : FileSystem) (events : List Event) (report : Report)
    (json : Option String) : (reported fs events report json).output = report.text := by
  unfold reported
  split
  · rfl
  · split <;> rfl

theorem delivered_reported (fs : FileSystem) (events : List Event) (report : Report)
    (json : Option String) : Delivered fs report (reported fs events report json) json := by
  cases json with
  | none => exact .shown rfl rfl
  | some path =>
    unfold reported
    dsimp only
    cases hwrite : fs.write path (Text.Utf8.encode report.written) with
    | error e => exact .lost rfl rfl hwrite
    | ok files =>
      obtain ⟨_, hread, helsewhere⟩ := FileSystem.read_write hwrite
      exact .written rfl hwrite hread helsewhere

/-- **A run is all or nothing.** If it cannot be configured, if a pattern means nothing or has a directory
to list that cannot be listed, or if a path that was found cannot be read, then the exit status is 1,
standard output is empty and every file is as it was. Otherwise standard output is the text of the report on
what the patterns have found, pattern by pattern, and the same report is written as JSON if that was asked
for; that the file cannot be written is told by the exit status only. What a pattern finds is in the order of
the names, in every tree, if its components can be followed in order. -/
theorem all_or_nothing (fs : FileSystem) (filter : Journal.Filter) {arguments : List String}
    {i : Invocation} (h : Command.read arguments = .run i) :
    (Halts fs i → Withheld fs (ofCommand fs (some filter) (Command.read arguments))) ∧
    (¬ Halts fs i → ∃ config found set, Ready fs i config found ∧
      ingest config fs found.flatten = .ok set ∧
      (ofCommand fs (some filter) (Command.read arguments)).output = (analyze config set).text ∧
      Delivered fs (analyze config set) (ofCommand fs (some filter) (Command.read arguments)) i.json) ∧
    (∀ text pattern paths, Glob.Pattern.read? text = .ok pattern → pattern.Orderly →
      Glob.paths fs text = .ok paths →
      paths.Pairwise fun path other => Glob.trail path < Glob.trail other) := by
  rw [ofCommand_of_read h]
  refine ⟨withheld_of_halts, fun hgoes => ?_, fun text pattern paths hread hp hpaths => ?_⟩
  · obtain ⟨config, found, hready⟩ := exists_ready hgoes
    obtain ⟨set, events, hset, hreported⟩ := reported_of_ready hready
    rw [hreported]
    exact ⟨config, found, set, hready, hset, output_reported .., delivered_reported ..⟩
  · exact Glob.paths_in_order hread hp hpaths

/-! ## Runs on a few logs -/

def bytesOf (text : String) : List UInt8 := Text.Utf8.encode text.toList

/-- Two logs, and a directory with older ones. -/
def twoLogs : FileSystem :=
  ⟨((FileTree.empty.put ["a.log"] (.file (bytesOf "10:00:00 RDTSC A 26\n"))).put ["b.log"]
    (.file (bytesOf "10:00:01 RDTSC A 52\n"))).put ["old"] .empty, []⟩

/-- A log of one line. -/
def logOf (tag : String) : List UInt8 := bytesOf ("10:00:00 RDTSC " ++ tag ++ " 26\n")

/-- Logs in a directory and in one below it. -/
def nestedLogs : FileSystem :=
  ⟨(FileTree.empty.put ["a", "a", "x.log"] (.file (logOf "X"))).put ["a", "b.log"] (.file (logOf "B")), []⟩

def twoLogsAsJson : Invocation := ⟨["*.log"], none, none, some "out.json", false⟩

theorem ready_twoLogsAsJson : Ready twoLogs twoLogsAsJson .default [["a.log", "b.log"]] := by
  have hload : Config.load twoLogs none none = .ok .default := rfl
  have hpaths : Glob.paths twoLogs "*.log" = .ok ["a.log", "b.log"] := by decide +kernel
  have ha : twoLogs.read "a.log" = .ok (bytesOf "10:00:00 RDTSC A 26\n") := by decide +kernel
  have hb : twoLogs.read "b.log" = .ok (bytesOf "10:00:01 RDTSC A 52\n") := by decide +kernel
  refine ⟨hload, .cons hpaths .nil, ?_⟩
  exact List.forall_mem_cons.mpr ⟨⟨_, ha⟩, List.forall_mem_singleton.mpr ⟨_, hb⟩⟩

/-- A directory is found and cannot be read. -/
theorem halts_twoLogs : Halts twoLogs ⟨["*"], none, none, none, false⟩ := by
  have hpaths : Glob.paths twoLogs "*" = .ok ["a.log", "b.log", "old"] := by decide +kernel
  have hread : twoLogs.read "old" = .error .isADirectory := by decide +kernel
  exact .unreadable (List.mem_singleton_self _) hpaths (by simp) hread

theorem exists_orderly (text : String)
    (h : (Glob.Pattern.read? text).toOption.any (fun p => decide p.Orderly) = true) :
    ∃ pattern, Glob.Pattern.read? text = .ok pattern ∧ pattern.Orderly := by
  cases hread : Glob.Pattern.read? text with
  | error e =>
    rw [hread] at h
    cases h
  | ok pattern =>
    rw [hread] at h
    exact ⟨pattern, rfl, of_decide_eq_true h⟩

theorem all_or_nothing_twoLogs :
    Withheld twoLogs (ofCommand twoLogs (some .default) (Command.read ["*"])) ∧
    (∃ config found set, Ready twoLogs twoLogsAsJson config found ∧
      ingest config twoLogs found.flatten = .ok set ∧
      (ofCommand twoLogs (some .default) (Command.read ["*.log", "--json", "out.json"])).output =
        (analyze config set).text ∧
      Delivered twoLogs (analyze config set)
        (ofCommand twoLogs (some .default) (Command.read ["*.log", "--json", "out.json"]))
        (some "out.json")) ∧
    (Glob.paths nestedLogs "**/*.log" = .ok ["a/a/x.log", "a/b.log"] ∧
      ["a/a/x.log", "a/b.log"].Pairwise fun path other => Glob.trail path < Glob.trail other) := by
  have hall : Command.read ["*"] = .run ⟨["*"], none, none, none, false⟩ := by decide +kernel
  have hlogs : Command.read ["*.log", "--json", "out.json"] = .run twoLogsAsJson := by decide +kernel
  have hready := ready_twoLogsAsJson
  have hpaths : Glob.paths nestedLogs "**/*.log" = .ok ["a/a/x.log", "a/b.log"] := by decide +kernel
  obtain ⟨pattern, hread, hp⟩ := exists_orderly "**/*.log" (by decide +kernel)
  obtain ⟨hwithheld, _, _⟩ := all_or_nothing twoLogs .default hall
  obtain ⟨_, hreports, _⟩ := all_or_nothing twoLogs .default hlogs
  obtain ⟨_, _, hsorted⟩ := all_or_nothing nestedLogs .default hlogs
  exact ⟨hwithheld halts_twoLogs, hreports hready.not_halts, hpaths,
    hsorted "**/*.log" pattern _ hread hp hpaths⟩

/-! ## A directory that cannot be listed -/

/-- A name of 196 characters. -/
def longName : String := .ofList (List.replicate 196 'd')

/-- A pattern of 4003 characters. -/
def longPattern : String := Glob.detour longName 19 ++ "/*/*"

theorem utf8Len_replicate (n : Nat) : String.utf8Len (List.replicate n 'd') = n := by
  induction n with
  | zero => rfl
  | succ n ih =>
    rw [List.replicate_succ, String.utf8Len_cons, ih]
    rfl

theorem size_longName : longName.utf8ByteSize = 196 :=
  (String.utf8ByteSize_ofList _).trans (utf8Len_replicate 196)

theorem eq_of_mem_longName {c : Char} (h : c ∈ longName.toList) : c = 'd' := by
  have hlist : longName.toList = List.replicate 196 'd' := String.toList_ofList
  rw [hlist] at h
  exact List.eq_of_mem_replicate h

theorem directoryName_longName : Glob.DirectoryName longName := by
  -- The names that it must not be are of another size.
  have hne : ∀ name : String, name.utf8ByteSize ≠ 196 → longName ≠ name := by
    rintro _ hsize rfl
    exact hsize size_longName
  have hnot : ∀ c : Char, c ≠ 'd' → c ∉ longName.toList := fun c hc h => hc (eq_of_mem_longName h)
  constructor
  case toEntryName => exact ⟨hne _ (by decide), hnot _ (by decide), hne _ (by decide), hne _ (by decide)⟩
  case no_zero => exact hnot _ (by decide)
  case plain =>
    intro c hc
    rw [eq_of_mem_longName hc]
    decide
  case short =>
    rw [size_longName]
    decide

theorem paths_longPattern :
    ∃ e, Glob.paths (Glob.oneDirectory longName) longPattern = .error (.unlisted longPattern e) := by
  have hsize := Glob.size_detour longName 19
  rw [size_longName] at hsize
  have hmax : FileSystem.maxPathBytes = 4095 := rfl
  refine ⟨_, Glob.paths_of_detour directoryName_longName (by omega) ?_⟩
  rw [String.utf8ByteSize_append, String.utf8ByteSize_append, size_longName,
    show "/".utf8ByteSize = 1 by decide]
  omega

theorem withheld_longPattern :
    Withheld (Glob.oneDirectory longName)
      (ofCommand (Glob.oneDirectory longName) (some .default) (Command.read ["--", longPattern])) := by
  obtain ⟨e, he⟩ := paths_longPattern
  have hread : Command.read ["--", longPattern] = .run ⟨[longPattern], none, none, none, false⟩ := rfl
  have hhalts : Halts (Glob.oneDirectory longName) ⟨[longPattern], none, none, none, false⟩ :=
    .unlisted (List.mem_singleton_self _) he
  rw [ofCommand_of_read hread]
  exact withheld_of_halts hhalts

theorem append_newline_ne_empty (front back : String) : front ++ "\n" ++ back ≠ "" := by
  intro h
  have hsize := congrArg String.utf8ByteSize h
  rw [String.utf8ByteSize_append, String.utf8ByteSize_append, show "\n".utf8ByteSize = 1 by decide,
    String.utf8ByteSize_empty] at hsize
  omega

/-- A text has a head, and that ends a line. -/
theorem text_ne_empty (report : Report) : report.text ≠ "" := append_newline_ne_empty _ _

/-- **A directory that cannot be listed stops a run.** The configuration is loaded, no pattern means nothing
and no path is found that cannot be read, and still there is no report: it takes a directory with nothing in
it, under a path that has grown too long. -/
theorem withheld_of_unlisted :
    Command.read ["--", longPattern] = .run ⟨[longPattern], none, none, none, false⟩ ∧
      (Glob.oneDirectory longName).root = .directory [(longName, .directory [])] ∧
      Config.load (Glob.oneDirectory longName) none none = .ok .default ∧
      (∃ pattern, Glob.Pattern.read? longPattern = .ok pattern) ∧
      (∀ paths, Glob.paths (Glob.oneDirectory longName) longPattern ≠ .ok paths) ∧
      (ofCommand (Glob.oneDirectory longName) (some .default) (Command.read ["--", longPattern])).exit = 1 ∧
      ∀ report : Report, (ofCommand (Glob.oneDirectory longName) (some .default)
        (Command.read ["--", longPattern])).output ≠ report.text := by
  obtain ⟨e, he⟩ := paths_longPattern
  obtain ⟨hexit, houtput, _⟩ := withheld_longPattern
  refine ⟨rfl, rfl, rfl, ⟨_, Glob.read?_detour directoryName_longName 19⟩, ?_, hexit, ?_⟩
  · intro paths hpaths
    cases he.symm.trans hpaths
  · intro report
    rw [houtput]
    exact (text_ne_empty report).symm

/-! ## Patterns that find files out of order -/

/-- What the line of such a log holds. -/
def tenNanos (tag : String) : Record :=
  ⟨.tenOClock, tag, .ofNat 10⟩

/-- Two of them. -/
def tenNanosTwice (tag other : String) : RecordSet :=
  ⟨[tenNanos tag, tenNanos other], [], ⟨2, 2, 0, 0, 0, 0, 0⟩⟩

def logArrivals (tag : String) : List Arrival := Arrival.ofByteLines (Text.byteLines (logOf tag))

theorem accepted_logArrivals : ∀ tag ∈ ["B", "X"],
    accepted Config.default.frequency .rdtsc (logArrivals tag) = [tenNanos tag] ∧
      accepted Config.default.frequency .ttt (logArrivals tag) = [] ∧
      ((logArrivals tag).map (Arrival.tally Config.default.frequency)).sum = ⟨1, 1, 0, 0, 0, 0, 0⟩ := by
  decide +kernel

theorem normalize_tenNanos {tag other : String} (hne : tag ≠ other) :
    RecordSet.normalize [tenNanos tag, tenNanos other] = [tenNanos tag, tenNanos other] := by
  refine RecordSet.normalize_of_pairwise (List.pairwise_pair.mpr (Nat.le_refl _)) ?_
  exact List.pairwise_pair.mpr fun h => hne (congrArg Record.Key.tag h)

/-- Of two logs the records of the first are in front, as all are of one time. -/
theorem ingest_logs {fs : FileSystem} {first second tag other : String} (hne : tag ≠ other)
    (htag : tag ∈ ["B", "X"]) (hother : other ∈ ["B", "X"])
    (hfirst : fs.read first = .ok (logOf tag)) (hsecond : fs.read second = .ok (logOf other)) :
    ingest .default fs [first, second] = .ok (tenNanosTwice tag other) := by
  have hreadable : ∀ path ∈ [first, second], ∃ bytes, fs.read path = .ok bytes :=
    List.forall_mem_cons.mpr ⟨⟨_, hfirst⟩, List.forall_mem_singleton.mpr ⟨_, hsecond⟩⟩
  have harrivals : arrivals ([first, second].map (Step.file fs)) = logArrivals tag ++ logArrivals other := by
    simp only [arrivals, List.map_cons, List.map_nil, List.flatMap_cons, List.flatMap_nil, Step.arrivals,
      hfirst, hsecond, List.append_nil]
    rfl
  obtain ⟨hrdtsc, httt, htally⟩ := accepted_logArrivals tag htag
  obtain ⟨hrdtsc', httt', htally'⟩ := accepted_logArrivals other hother
  have haccepted : ∀ kind, accepted Config.default.frequency kind (logArrivals tag ++ logArrivals other) =
      accepted Config.default.frequency kind (logArrivals tag) ++
        accepted Config.default.frequency kind (logArrivals other) := fun kind => List.filterMap_append
  have hstream := Store.stream_run_empty Config.default.frequency ([first, second].map (Step.file fs)) .rdtsc
  have hnothing := Store.stream_run_empty Config.default.frequency ([first, second].map (Step.file fs)) .ttt
  have hsum := Store.tally_run_empty Config.default.frequency ([first, second].map (Step.file fs))
  rw [harrivals, haccepted, hrdtsc, hrdtsc', List.singleton_append, normalize_tenNanos hne] at hstream
  rw [harrivals, haccepted, httt, httt', List.append_nil,
    RecordSet.normalize_of_pairwise .nil .nil] at hnothing
  rw [harrivals, List.map_append, List.sum_append, htally, htally'] at hsum
  rw [ingest_of_readable hreadable]
  refine congrArg Except.ok ?_
  rw [tenNanosTwice, RecordSet.mk.injEq]
  exact ⟨hstream, hnothing, hsum⟩

theorem tagReports_tenNanosTwice {tag other : String} (hne : tag ≠ other) :
    Analysis.tagReports (tenNanosTwice tag other) =
      [⟨tag, .insufficient 1⟩, ⟨other, .insufficient 1⟩] := by
  have htags : (tenNanosTwice tag other).rdtscTags = [tag, other] :=
    firstOccurrences_of_pairwise (List.pairwise_pair.mpr hne)
  have hone : ∀ t, Series.summarize .point [(tenNanos t).point] = .insufficient 1 := by
    have hpoint : Series.summarize .point [(tenNanos "").point] = .insufficient 1 := by decide +kernel
    exact fun _ => hpoint
  have hfirst : (tenNanosTwice tag other).rdtscFor tag = [tenNanos tag] := by
    simp [RecordSet.rdtscFor, tenNanosTwice, tenNanos, hne.symm]
  have hsecond : (tenNanosTwice tag other).rdtscFor other = [tenNanos other] := by
    simp [RecordSet.rdtscFor, tenNanosTwice, tenNanos, hne]
  rw [Analysis.tagReports, htags]
  simp only [List.map_cons, List.map_nil, Analysis.tagReport, hfirst, hsecond, hone]

theorem exists_text_tenNanosTwice {tag other : String} (hne : tag ≠ other) :
    ∃ rest, (analyze .default (tenNanosTwice tag other)).text =
      (analyze .default (tenNanosTwice "" "")).head ++ "\nRDTSC " ++ (tag ++ rest) := by
  have hrdtsc : (analyze .default (tenNanosTwice tag other)).rdtscPart =
      [.tag ⟨tag, .insufficient 1⟩, .tag ⟨other, .insufficient 1⟩] :=
    congrArg (List.map Report.Statement.tag) (tagReports_tenNanosTwice hne)
  rw [Report.text, hrdtsc, List.cons_append, List.map_cons, String.join_cons, Report.Statement.text]
  simp only [String.append_assoc]
  exact ⟨_, rfl⟩

/-- The tag of the first log is reported first. -/
theorem text_tenNanosTwice_ne :
    (analyze .default (tenNanosTwice "B" "X")).text ≠ (analyze .default (tenNanosTwice "X" "B")).text := by
  obtain ⟨rest, hfound⟩ := exists_text_tenNanosTwice (show "B" ≠ "X" by decide)
  obtain ⟨rest', hsorted⟩ := exists_text_tenNanosTwice (show "X" ≠ "B" by decide)
  rw [hfound, hsorted]
  generalize (analyze .default (tenNanosTwice "" "")).head ++ "\nRDTSC " = front
  intro h
  have hlist := congrArg String.toList h
  simp only [String.toList_append] at hlist
  cases (List.cons.inj (List.append_cancel_left hlist)).1

/-- The pattern finds two logs, of which the second has the lesser name, and the report is not the one on
the sorted files. -/
def ReportsUnsorted (fs : FileSystem) (pattern first second : String) : Prop :=
  Command.read [pattern] = .run ⟨[pattern], none, none, none, false⟩ ∧
    Glob.paths fs pattern = .ok [first, second] ∧ Glob.trail second < Glob.trail first ∧
    ∃ set, ingest .default fs [second, first] = .ok set ∧
      (ofCommand fs (some .default) (Command.read [pattern])).output ≠ (analyze .default set).text

theorem reportsUnsorted_of_paths {fs : FileSystem} {pattern first second : String}
    (hread : Command.read [pattern] = .run ⟨[pattern], none, none, none, false⟩)
    (hpaths : Glob.paths fs pattern = .ok [first, second])
    (hlt : Glob.trail second < Glob.trail first)
    (hfirst : fs.read first = .ok (logOf "B")) (hsecond : fs.read second = .ok (logOf "X")) :
    ReportsUnsorted fs pattern first second := by
  have hreadable : ∀ path ∈ [first, second], ∃ bytes, fs.read path = .ok bytes :=
    List.forall_mem_cons.mpr ⟨⟨_, hfirst⟩, List.forall_mem_singleton.mpr ⟨_, hsecond⟩⟩
  have hready : Ready fs ⟨[pattern], none, none, none, false⟩ .default [[first, second]] :=
    ⟨rfl, .cons hpaths .nil, hreadable⟩
  have hfound := ingest_logs (by decide) (by decide) (by decide) hfirst hsecond
  have hsorted := ingest_logs (by decide) (by decide) (by decide) hsecond hfirst
  obtain ⟨set, events, hset, hreported⟩ := reported_of_ready hready
  refine ⟨hread, hpaths, hlt, _, hsorted, ?_⟩
  rw [ofCommand_of_read hread, hreported, output_reported, Except.ok.inj (hset.symm.trans hfound)]
  exact text_tenNanosTwice_ne

/-- **What a pattern finds, and so the report, need not be in the order of the names**, neither with two
components behind `**` nor behind a wildcard that stands for `.` and `..`. -/
theorem reportsUnsorted_nestedLogs :
    ReportsUnsorted nestedLogs "**/a/*.log" "a/b.log" "a/a/x.log" ∧
      ReportsUnsorted nestedLogs "a/a/.*/?.log" "a/a/../b.log" "a/a/./x.log" := by
  constructor
  · exact reportsUnsorted_of_paths (by decide +kernel) (by decide +kernel) (by decide +kernel)
      (by decide +kernel) (by decide +kernel)
  · exact reportsUnsorted_of_paths (by decide +kernel) (by decide +kernel) (by decide +kernel)
      (by decide +kernel) (by decide +kernel)

end Run

end LatencyLog
