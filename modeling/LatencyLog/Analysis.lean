import LatencyLog.Config.Basic
import LatencyLog.Report.Basic
import LatencyLog.Store
import LatencyLog.Transit

/-!
# Analysis

An analysis reads log files into one record set (`ingest`) and summarizes every series in it
(`analyze`): each RDTSC tag, in the order in which tags first occur, and each hop, in the order of
the topology. Without any TTT record there is nothing to say about hops, and none is listed.

Files are read in order, and the first one that cannot be read ends the run. What has happened up
to there is kept as a `Reading`, so that it can be told.
-/

namespace LatencyLog

/-! ## Reading -/

/-- What has come of reading files: the store, the files that were read with what each added, and
the error that ended it, if one did. -/
structure Reading where
  store : Store
  done : List (String × Tally)
  failed : Option ReadError

/-- Reads files into a store. -/
def Store.readFiles (fs : FileSystem) : Store → List String → Reading
  | s, [] => ⟨s, [], none⟩
  | s, path :: paths =>
    match s.addFile fs path with
    | (s', .ok tally) =>
      let reading := s'.readFiles fs paths
      { reading with done := (path, tally) :: reading.done }
    | (s', .error e) => ⟨s', [], some e⟩

/-- The record set of what was read. -/
def Reading.result (r : Reading) : Except ReadError RecordSet :=
  match r.failed with
  | some e => .error e
  | none => .ok r.store.finish

/-- The record set of files. -/
def ingest (config : Config) (fs : FileSystem) (paths : List String) : Except ReadError RecordSet :=
  ((Store.empty config.frequency).readFiles fs paths).result

/-! ## Summarizing -/

def Record.point (r : Record) : Point := ⟨r.time, r.value⟩

namespace Analysis

/-- The series of one tag. -/
def tagReport (set : RecordSet) (tag : String) : TagReport :=
  ⟨tag, Series.summarize .point ((set.rdtscFor tag).map Record.point)⟩

/-- What becomes of the transits of a hop. -/
def hopOutcome (transits : List Point) : Outcome :=
  if Series.isEnough transits then Series.summarize .hop transits
  else .insufficient transits.length

def tagReports (set : RecordSet) : List TagReport := set.rdtscTags.map (tagReport set)

def hopReports (topology : Topology) (set : RecordSet) : List HopReport :=
  if set.ttt.isEmpty then []
  else (topology.transits set.ttt).map fun (hop, transits) => ⟨hop, hopOutcome transits⟩

end Analysis

/-- The report on a record set. -/
def analyze (config : Config) (set : RecordSet) : Report where
  ghz := config.frequency.ghz
  tally := set.tally
  rdtscRecords := set.rdtsc.length
  tttRecords := set.ttt.length
  rdtsc := Analysis.tagReports set
  hops := Analysis.hopReports config.topology set

end LatencyLog
