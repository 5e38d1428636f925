import LatencyLog.Analysis
import LatencyLog.Json.Printer

/-!
# Events of a run

A run keeps a journal. An `Event` is one thing worth telling; it has a level, a source that says
which part of the program tells it, a message and named fields. A line of the journal is written as
text or as a JSON object.

How long a run took is no event here, since nothing in a run depends on a clock. Whoever writes the
journal may add it to `finished`, under the names `addedNames`.
-/

namespace LatencyLog

/-- How much an event matters. -/
inductive Level where
  | error
  | warn
  | info
  | debug
  | trace
deriving DecidableEq

namespace Level

/-- Levels as numbers, the most important first. -/
def rank : Level → Nat
  | error => 1
  | warn => 2
  | info => 3
  | debug => 4
  | trace => 5

def name : Level → String
  | error => "ERROR"
  | warn => "WARN"
  | info => "INFO"
  | debug => "DEBUG"
  | trace => "TRACE"

end Level

/-- The value of a field. -/
inductive FieldValue where
  | text (text : String)
  | count (n : Nat)
  | number (x : Binary64)
deriving DecidableEq

namespace FieldValue

def toJson : FieldValue → Json
  | text s => Json.ofText s
  | count n => Json.ofNat n
  | number x => Json.ofFloat x

def toText : FieldValue → String
  | text s => s
  | count n => toString n
  | number x => String.ofList (Decimal.message x)

end FieldValue

inductive Event where
  | configured (config : Config)
  | unmatched (pattern : String)
  | reading (path : String)
  | read (path : String) (added : Tally)
  | ingested (files : Nat) (total : Tally)
  | tag (report : TagReport)
  | hop (report : HopReport)
  | nothingFound (files : Nat)
  | finished
  | reportWritten (path : String)
deriving DecidableEq

namespace Event

def level : Event → Level
  | unmatched _ => .warn
  | nothingFound _ => .warn
  | read .. => .debug
  | _ => .info

/-- The part of the program that an event comes from. -/
def source : Event → String
  | unmatched _ => "titan_perf::config"
  | reading _ => "titan_perflog::store"
  | read .. => "titan_perflog::store"
  | ingested .. => "titan_perf::analysis"
  | tag _ => "titan_perf::analysis"
  | hop _ => "titan_perf::analysis"
  | _ => "titan_perf"

/-- What is said of a series by its outcome. -/
def outcomeMessage : Outcome → String
  | .summarized _ => "series summarized"
  | .insufficient _ => "not enough data points, skipping"

def message : Event → String
  | configured _ => "configuration loaded"
  | unmatched _ => "pattern matched no files"
  | reading _ => "processing file"
  | read .. => "file ingested"
  | ingested .. => "ingestion complete"
  | tag report => outcomeMessage report.outcome
  | hop report => outcomeMessage report.outcome
  | nothingFound _ => "no RDTSC or TTT records found"
  | finished => "analysis finished"
  | reportWritten _ => "json report written"

/-- The counters of a tally that events show. -/
def tallyFields (t : Tally) : List (String × FieldValue) :=
  [("lines", .count t.lines.toNat), ("rdtsc", .count t.rdtsc.toNat), ("ttt", .count t.ttt.toNat),
    ("discarded", .count t.discarded.toNat)]

def outcomeFields : Outcome → List (String × FieldValue)
  | .summarized s =>
    [("count", .count s.count), ("mean_ns", .number s.meanNanos), ("unit", .text s.unit.name)]
  | .insufficient usable => [("usable", .count usable)]

def fields : Event → List (String × FieldValue)
  | configured config =>
    [("cpu_freq", .text config.frequency.text), ("hops", .count config.topology.length)]
  | unmatched pattern => [("pattern", .text pattern)]
  | reading path => [("file", .text path)]
  | read path added => ("file", .text path) :: tallyFields added
  | ingested files total => ("files", .count files) :: tallyFields total
  | tag report =>
    ("stream", .text "rdtsc") :: ("name", .text report.tag) :: outcomeFields report.outcome
  | hop report =>
    ("stream", .text "hop") :: ("name", .text report.hop.name) :: outcomeFields report.outcome
  | nothingFound files => [("files", .count files)]
  | finished => []
  | reportWritten path => [("file", .text path)]

/-- The fields that whoever writes the journal may add: what it took to read the files, and to look
at what they hold. -/
def addedNames : Event → List String
  | finished => ["ingest", "analyze"]
  | _ => []

/-- The names of all fields, where the message is one. -/
def fieldNames (e : Event) : List String := "message" :: e.fields.map Prod.fst ++ e.addedNames

/-- An event as a line of JSON, at a time and with further fields. -/
def jsonLine (time : String) (more : List (String × FieldValue)) (e : Event) : String :=
  let fields := (e.fields ++ more).map fun (name, value) => (name, value.toJson)
  let head :=
    [("timestamp", Json.ofText time), ("level", Json.ofText e.level.name),
      ("message", Json.ofText e.message)]
  String.ofList (Json.ofFields (head ++ fields ++ [("target", Json.ofText e.source)])).compact

/-- An event as a line of text, at a time and with further fields. -/
def textLine (time : String) (more : List (String × FieldValue)) (e : Event) : String :=
  let fields := (e.fields ++ more).map fun (name, value) => " " ++ name ++ "=" ++ value.toText
  let level := String.ofList (List.replicate (5 - e.level.name.length) ' ') ++ e.level.name
  time ++ " " ++ level ++ " " ++ e.source ++ ": " ++ e.message ++ String.join fields

end Event

end LatencyLog
