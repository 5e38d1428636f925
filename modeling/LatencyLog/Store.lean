import LatencyLog.Files.Tree
import LatencyLog.Tally
import LatencyLog.Text.Lines
import LatencyLog.Text.Utf8
import Std.Data.HashSet

/-!
# The record store

While logs are read, a `Store` gathers the records of each kind in the order of their arrival, and
counts lines. `Store.finish` makes the `RecordSet` that is analysed: from each stream every
repetition of an earlier record is dropped, and what is left is brought into the order of time,
records of one time staying in the order of their arrival.

A store takes entries (`push`), lines (`addLine`), the bytes of a source (`addBytes`, or `addSource`
for one that may break off) and files (`addFile`). A source is cut into lines before its bytes are
decoded, and bytes that are no UTF-8 spoil only the line they are in. A file that cannot be read
leaves the store as it was.
-/

namespace LatencyLog

/-! ## First occurrences -/

/-- A list without the elements whose key an earlier element has. Keys already seen count as
earlier. -/
def firstOccurrences {α κ : Type} [BEq κ] [Hashable κ] (key : α → κ) (xs : List α) : List α :=
  (xs.foldl
    (fun (state : Std.HashSet κ × Array α) x =>
      if state.1.contains (key x) then state
      else (state.1.insert (key x), state.2.push x))
    (∅, #[])).2.toList

/-! ## The finished set -/

/-- Two streams of records, in the order of time and without repetitions. -/
structure RecordSet where
  rdtsc : List Record
  ttt : List Record
  tally : Tally
deriving DecidableEq

namespace RecordSet

/-- One stream in its final form. -/
def normalize (records : List Record) : List Record :=
  (firstOccurrences Record.key records).mergeSort fun a b => decide (a.time ≤ b.time)

def isEmpty (set : RecordSet) : Bool := set.rdtsc.isEmpty && set.ttt.isEmpty

/-- The tags of the RDTSC stream, each where it first occurs. -/
def rdtscTags (set : RecordSet) : List String := firstOccurrences id (set.rdtsc.map Record.tag)

/-- The RDTSC records with a tag. -/
def rdtscFor (set : RecordSet) (tag : String) : List Record :=
  set.rdtsc.filter fun r => decide (r.tag = tag)

end RecordSet

/-! ## Gathering -/

/-- A log file that could not be read. -/
structure ReadError where
  path : String
  cause : FileError
deriving DecidableEq

def ReadError.message (e : ReadError) : String :=
  "failed to read log file " ++ e.path ++ ": " ++ e.cause.message

/-- What a reader gives: bytes, and then their end or an error. -/
structure Source where
  bytes : List UInt8
  broken : Bool

structure Store where
  frequency : Frequency
  rdtsc : Array Record
  ttt : Array Record
  tally : Tally

namespace Store

def empty (f : Frequency) : Store := ⟨f, #[], #[], .zero⟩

/-- Adds an entry. Its line, if it had one, is not counted here. -/
def push (s : Store) (e : Entry) : Store :=
  match e.kind with
  | .rdtsc => { s with rdtsc := s.rdtsc.push e.record, tally := s.tally.countEntry .rdtsc }
  | .ttt => { s with ttt := s.ttt.push e.record, tally := s.tally.countEntry .ttt }

/-- Counts a line, and adds what it holds or counts why it was skipped. -/
def addLine (s : Store) (line : List Char) : Store × Except Discard Unit :=
  let counted : Store := { s with tally := s.tally.countLine }
  match Entry.ofLine s.frequency line with
  | .ok entry => (counted.push entry, .ok ())
  | .error discard => ({ counted with tally := counted.tally.countDiscard discard }, .error discard)

/-- Adds lines that are still bytes. -/
def addByteLines (s : Store) (lines : List (List UInt8)) : Store :=
  lines.foldl (fun s line => (s.addLine (Text.Utf8.decodeLossy line)).1) s

/-- Adds the lines of a source, and gives the tally of this source alone. -/
def addBytes (s : Store) (bytes : List UInt8) : Store × Tally :=
  let s' := s.addByteLines (Text.byteLines bytes)
  (s', s'.tally - s.tally)

/-- Adds the lines of a source that may break off. The lines that had ended by then stay, what there
was of another one is lost, and there is no tally. -/
def addSource (s : Store) (source : Source) : Store × Option Tally :=
  if source.broken then (s.addByteLines (Text.endedLines source.bytes), none)
  else
    let (s', tally) := s.addBytes source.bytes
    (s', some tally)

/-- Adds the lines of a file. -/
def addFile (s : Store) (fs : FileSystem) (path : String) : Store × Except ReadError Tally :=
  match fs.read path with
  | .ok bytes =>
    let (s', tally) := s.addBytes bytes
    (s', .ok tally)
  | .error cause => (s, .error ⟨path, cause⟩)

/-- Drops repetitions, orders by time and closes the store. -/
def finish (s : Store) : RecordSet where
  rdtsc := RecordSet.normalize s.rdtsc.toList
  ttt := RecordSet.normalize s.ttt.toList
  tally := s.tally

end Store

end LatencyLog
