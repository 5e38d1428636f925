import LatencyLog.Glob.Expand
import LatencyLog.Invocation
import LatencyLog.Journal.Filter
import LatencyLog.Report.Json
import LatencyLog.Report.Text

/-!
# Runs

A run goes from a command line and a file system to everything that can be seen of it: the exit
status, what stands on standard output, the events of its journal, what went wrong, and the files as
they are behind it.

Nothing is put out before every file is read. A run that cannot be configured, has a pattern that
means nothing or meets a file that cannot be read leaves standard output empty and the files as they
were. Only writing the JSON report can fail later, and then the text report has been put out.
-/

namespace LatencyLog

/-! ## Errors -/

/-- What ended a run early. -/
inductive RunError where
  | misuse (cause : Misuse)
  | config (cause : ConfigError)
  | pattern (cause : Glob.Failure)
  | read (cause : ReadError)
  | create (path : String) (cause : FileError)
  /-- The filter of the journal cannot be cut into rules. -/
  | filter
deriving DecidableEq

namespace RunError

def exit : RunError → Nat
  | misuse _ => 2
  | filter => 101
  | _ => 1

def message : RunError → String
  | misuse cause => cause.message
  | config _ => "invalid configuration"
  | pattern cause => cause.message
  | read cause => cause.message
  | create path _ => "failed to create " ++ path
  | filter => "the filter of the journal cuts a character"

/-- The causes of an error, the nearest first. -/
def causes : RunError → List String
  | misuse _ => []
  | config (.unreadable path cause) => [(ConfigError.unreadable path cause).message, cause.message]
  | config cause => [cause.message]
  | pattern cause => [cause.cause]
  | read cause => [cause.cause.message]
  | create _ cause => [cause.message]
  | filter => []

/-- A text of several lines, the first behind a mark and the others behind as many blanks. -/
def hanging (mark : String) (text : String) : List String :=
  (text.toList.splitOn '\n').mapIdx fun i line =>
    (if i = 0 then mark else String.ofList (List.replicate mark.length ' ')) ++ String.ofList line

/-- The causes as lines: one cause is indented, several are numbered. -/
def causeLines : List String → List String
  | [] => []
  | [cause] => "" :: "Caused by:" :: hanging "    " cause
  | causes =>
    "" :: "Caused by:" ::
      (causes.mapIdx fun n cause => hanging ("    " ++ toString n ++ ": ") cause).flatten

/-- What is written about an error, line by line. -/
def lines (e : RunError) : List String :=
  (("Error: " ++ e.message).toList.splitOn '\n').map String.ofList ++ causeLines e.causes

end RunError

/-! ## Patterns -/

/-- What has come of looking for files: the patterns with the paths that each found, and the error
that ended it, if one did. -/
structure Matching where
  done : List (String × List String)
  failed : Option Glob.Failure

namespace Matching

def ofPatterns (fs : FileSystem) : List String → Matching
  | [] => ⟨[], none⟩
  | pattern :: patterns =>
    match Glob.paths fs pattern with
    | .ok paths =>
      let matching := ofPatterns fs patterns
      { matching with done := (pattern, paths) :: matching.done }
    | .error e => ⟨[], some e⟩

/-- All paths, pattern by pattern. -/
def paths (m : Matching) : List String := m.done.flatMap Prod.snd

def events (m : Matching) : List Event :=
  m.done.filterMap fun (pattern, paths) => if paths.isEmpty then some (.unmatched pattern) else none

end Matching

/-! ## Runs -/

/-- Everything that can be seen of a run. -/
structure Run where
  output : String
  events : List Event
  failed : Option RunError
  files : FileSystem

namespace Run

def exit (r : Run) : Nat := (r.failed.map RunError.exit).getD 0

/-- Events of reading files. The file that could not be read was begun. -/
def readingEvents (reading : Reading) : List Event :=
  (reading.done.flatMap fun (path, tally) => [Event.reading path, Event.read path tally]) ++
    (reading.failed.map fun e => Event.reading e.path).toList

/-- Events of an analysis of so many files. -/
def reportEvents (files : Nat) (report : Report) : List Event :=
  report.rdtsc.map .tag ++ report.hops.map .hop ++
    (if report.isEmpty then [.nothingFound files] else []) ++ [.finished]

/-- The events that a filter lets through. -/
def journal (r : Run) (filter : Option Journal.Filter) : List Event :=
  r.events.filter fun e => filter.any fun f => f.passes e

/-- A run that has ended early with nothing put out. -/
def stopped (fs : FileSystem) (events : List Event) (e : RunError) : Run := ⟨"", events, some e, fs⟩

/-- A run that has a report, and may have to write it into a file. -/
def reported (fs : FileSystem) (events : List Event) (report : Report) (json : Option String) :
    Run :=
  match json with
  | none => ⟨report.text, events, none, fs⟩
  | some path =>
    match fs.write path (Text.Utf8.encode report.written) with
    | .ok files => ⟨report.text, events ++ [.reportWritten path], none, files⟩
    | .error cause => ⟨report.text, events, some (.create path cause), fs⟩

/-- A run that is configured. -/
def ofConfig (fs : FileSystem) (config : Config) (i : Invocation) : Run :=
  let matching := Matching.ofPatterns fs i.patterns
  let found := Event.configured config :: matching.events
  match matching.failed with
  | some e => stopped fs found (.pattern e)
  | none =>
    let paths := matching.paths
    let reading := (Store.empty config.frequency).readFiles fs paths
    let read := found ++ readingEvents reading
    match reading.result with
    | .error e => stopped fs read (.read e)
    | .ok set =>
      let report := analyze config set
      reported fs (read ++ .ingested paths.length set.tally :: reportEvents paths.length report)
        report i.json

/-- A run that an invocation asks for. -/
def ofInvocation (fs : FileSystem) (i : Invocation) : Run :=
  match Config.load fs i.config i.frequency with
  | .error e => stopped fs [] (.config e)
  | .ok config => ofConfig fs config i

def versionText : String := "titan-perf 0.1.0\n"

def helpText : String :=
  "Analyze Titan RDTSC and TTT latency logs\n\n" ++
  "Usage: titan-perf [OPTIONS] <PATTERN>...\n\n" ++
  "Arguments:\n" ++
  "  <PATTERN>...  One or more log file patterns (e.g. \"logs/exchange*.log\")\n\n" ++
  "Options:\n" ++
  "      --cpu-freq <GHZ>  CPU frequency in GHz for RDTSC conversion [default: 2.60]\n" ++
  "      --config <FILE>   TOML config file (cpu_freq_ghz, [[hops]])\n" ++
  "      --json <FILE>     Write the full report as JSON for the chart renderer\n" ++
  "      --log-json        Emit logs as JSON\n" ++
  "  -h, --help            Print help\n" ++
  "  -V, --version         Print version\n"

/-- What a command does. Without a filter for the journal nothing is run. -/
def ofCommand (fs : FileSystem) (filter : Option Journal.Filter) : Command → Run
  | .run i => if filter.isSome then ofInvocation fs i else stopped fs [] .filter
  | .help => ⟨helpText, [], none, fs⟩
  | .version => ⟨versionText, [], none, fs⟩
  | .misuse what => stopped fs [] (.misuse what)

end Run

end LatencyLog
