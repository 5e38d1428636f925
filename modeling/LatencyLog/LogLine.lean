import LatencyLog.Frequency
import LatencyLog.Record

/-!
# Log lines

A line is `<time> <kind> <tag> <value>`, with exactly one space between fields and any white space
around the whole. Reading it has two halves: `Fields.read` splits and reads the number, and
`Fields.classify` reads the kind and the time and converts cycles to nanoseconds. A line that does
not pass is a `Discard`. When several things are wrong with a line, the discard is the first of
field count, value, kind and time.
-/

namespace LatencyLog

/-- Why a line was skipped. -/
inductive Discard where
  /-- Not exactly four fields. -/
  | fieldCount
  /-- The fourth field is no number. -/
  | invalidValue
  /-- The second field names no kind of event. -/
  | unknownKind
  /-- The first field is no time of day. -/
  | invalidTimestamp
deriving DecidableEq

/-- The fields of a line, the last one read as a number. -/
structure Fields where
  timestamp : String
  kindLabel : String
  tag : String
  value : Binary64
deriving DecidableEq

namespace Fields

/-- The pieces between the spaces of a text: one more than there are spaces. -/
def splitSpaces (cs : List Char) : List (List Char) := cs.splitOn ' '

/-- The fields of a line. -/
def read (line : List Char) : Except Discard Fields :=
  match splitSpaces (Text.trim line) with
  | [timestamp, kindLabel, tag, value] =>
    match Decimal.literal? value with
    | some x =>
      .ok ⟨String.ofList timestamp, String.ofList kindLabel, String.ofList tag, x⟩
    | none => .error .invalidValue
  | _ => .error .fieldCount

/-- The value of an entry: cycles become nanoseconds, counter readings stay. -/
def convert (f : Frequency) : EventKind → Binary64 → Binary64
  | .rdtsc, x => f.nanosOfCycles x
  | .ttt, x => x

/-- The entry that fields make. -/
def classify (f : Frequency) (fields : Fields) : Except Discard Entry :=
  match EventKind.ofLabel? fields.kindLabel with
  | none => .error .unknownKind
  | some kind =>
    match TimeOfDay.read? fields.timestamp.toList with
    | none => .error .invalidTimestamp
    | some time => .ok ⟨time, kind, fields.tag, convert f kind fields.value⟩

end Fields

/-- The entry that a line makes, cycles being counted at the given frequency. -/
def Entry.ofLine (f : Frequency) (line : List Char) : Except Discard Entry :=
  (Fields.read line).bind (Fields.classify f)

end LatencyLog
