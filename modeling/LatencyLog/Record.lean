import LatencyLog.Binary64.Basic
import LatencyLog.TimeOfDay

/-!
# Records

A log holds two kinds of events: durations measured with the cycle counter (RDTSC), and readings of
a counter at named points of the critical path (TTT). An accepted line is an `Entry`; once it is in
the stream of its kind, the kind is known and a `Record` is left.

`Record.key` says when two records of a stream are the same one, seen twice: same time, same tag,
same value. The zeros of either sign are one value there, and NaNs are told apart by their bits.
-/

namespace LatencyLog

inductive EventKind where
  /-- A duration; its value in the log is in cycles. -/
  | rdtsc
  /-- A counter reading, of use only in differences. -/
  | ttt
deriving DecidableEq

namespace EventKind

/-- The kind as a log writes it. -/
def label : EventKind → String
  | rdtsc => "RDTSC"
  | ttt => "TTT"

/-- The kind that a log's label names; case counts. -/
def ofLabel? (label : String) : Option EventKind :=
  if label = "RDTSC" then some rdtsc
  else if label = "TTT" then some ttt
  else none

@[simp]
theorem ofLabel?_label (k : EventKind) : ofLabel? k.label = some k := by
  cases k <;> rfl

theorem ofLabel?_eq_some_iff {label : String} {k : EventKind} :
    ofLabel? label = some k ↔ label = k.label := by
  constructor
  · unfold ofLabel?
    split
    · rintro ⟨⟩
      assumption
    · split
      · rintro ⟨⟩
        assumption
      · simp
  · rintro rfl
    exact ofLabel?_label k

end EventKind

/-- One accepted line. The value of an RDTSC entry is in nanoseconds. -/
structure Entry where
  time : TimeOfDay
  kind : EventKind
  tag : String
  value : Binary64
deriving DecidableEq

/-- One event of a stream whose kind is known. -/
structure Record where
  time : TimeOfDay
  tag : String
  value : Binary64
deriving DecidableEq

def Entry.record (e : Entry) : Record := ⟨e.time, e.tag, e.value⟩

namespace Record

/-- A value as far as duplicates go: the two zeros are one. -/
def valueKey (x : Binary64) : Binary64 :=
  match x with
  | .finite true m => if m.units = 0 then .zero else .finite true m
  | x => x

/-- What two records share exactly when one repeats the other. -/
structure Key where
  time : TimeOfDay
  tag : String
  value : Binary64
deriving DecidableEq

/-- All three parts count, so that neither one time nor one tag nor one value crowds a table. -/
instance : Hashable Key :=
  ⟨fun k => mixHash (hash k.time) (mixHash (hash k.tag) (hash k.value.bits))⟩

def key (r : Record) : Key := ⟨r.time, r.tag, valueKey r.value⟩

end Record

end LatencyLog
