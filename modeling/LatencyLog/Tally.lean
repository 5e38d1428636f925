import LatencyLog.LogLine

/-!
# Line counters

A `Tally` counts the lines of one or more sources, and what became of each: accepted by kind, or
skipped by cause. It is there for the reader of a report; nothing is decided by it. Counters are
64-bit words, so tallies form a group under `+`, and what one source adds to a store is the
difference of two tallies (`add_sub_cancel`).
-/

namespace LatencyLog

structure Tally where
  lines : UInt64
  rdtsc : UInt64
  ttt : UInt64
  badFieldCount : UInt64
  badValue : UInt64
  badTimestamp : UInt64
  unknownKind : UInt64
deriving DecidableEq

namespace Tally

def zero : Tally := ⟨0, 0, 0, 0, 0, 0, 0⟩

/-- Both tallies together. -/
def add (a b : Tally) : Tally where
  lines := a.lines + b.lines
  rdtsc := a.rdtsc + b.rdtsc
  ttt := a.ttt + b.ttt
  badFieldCount := a.badFieldCount + b.badFieldCount
  badValue := a.badValue + b.badValue
  badTimestamp := a.badTimestamp + b.badTimestamp
  unknownKind := a.unknownKind + b.unknownKind

/-- What `a` has counted beyond `b`. -/
def sub (a b : Tally) : Tally where
  lines := a.lines - b.lines
  rdtsc := a.rdtsc - b.rdtsc
  ttt := a.ttt - b.ttt
  badFieldCount := a.badFieldCount - b.badFieldCount
  badValue := a.badValue - b.badValue
  badTimestamp := a.badTimestamp - b.badTimestamp
  unknownKind := a.unknownKind - b.unknownKind

instance : Add Tally := ⟨add⟩

instance : Sub Tally := ⟨sub⟩

/-- All lines that were skipped. -/
def discarded (t : Tally) : UInt64 :=
  t.badFieldCount + t.badValue + t.badTimestamp + t.unknownKind

def countLine (t : Tally) : Tally := { t with lines := t.lines + 1 }

def countEntry (t : Tally) : EventKind → Tally
  | .rdtsc => { t with rdtsc := t.rdtsc + 1 }
  | .ttt => { t with ttt := t.ttt + 1 }

def countDiscard (t : Tally) : Discard → Tally
  | .fieldCount => { t with badFieldCount := t.badFieldCount + 1 }
  | .invalidValue => { t with badValue := t.badValue + 1 }
  | .invalidTimestamp => { t with badTimestamp := t.badTimestamp + 1 }
  | .unknownKind => { t with unknownKind := t.unknownKind + 1 }

theorem add_sub_cancel (a b : Tally) : a + b - a = b := by
  obtain ⟨b₁, b₂, b₃, b₄, b₅, b₆, b₇⟩ := b
  show sub (add a _) a = _
  simp only [add, sub, mk.injEq]
  refine ⟨?_, ?_, ?_, ?_, ?_, ?_, ?_⟩ <;> rw [UInt64.add_comm] <;> exact UInt64.add_sub_cancel _ _

end Tally

end LatencyLog
