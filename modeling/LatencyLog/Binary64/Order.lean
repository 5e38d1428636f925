import LatencyLog.Binary64.Basic

/-!
# Orders on binary64 numbers

There are two, and they are not to be confused. Comparing *values* (`lt`, `le`, `eq`) knows no
order for a NaN and no difference between the two zeros. The *total* order (`totalLE`) is the
one to sort by: it runs from the negative NaNs over the negative numbers, -0 and +0 to the
positive NaNs, the NaNs of one sign by their fractions, and only equal numbers are equivalent in it.
-/

namespace LatencyLog.Binary64

/-! ## By value -/

/-- The place of a number on the line of values, in units; infinity stands at the first power of
two that is too great. A NaN has no place. -/
def place? : Binary64 → Option Int
  | nan _ _ => none
  | infinity s => some (if s then -(ceiling : Int) else ceiling)
  | finite s m => some (if s then -(m.units : Int) else m.units)

def compareBy (test : Int → Int → Bool) (x y : Binary64) : Bool :=
  match x.place?, y.place? with
  | some a, some b => test a b
  | _, _ => false

/-- `x < y` as values. -/
def lt : Binary64 → Binary64 → Bool := compareBy fun a b => decide (a < b)

/-- `x ≤ y` as values. -/
def le : Binary64 → Binary64 → Bool := compareBy fun a b => decide (a ≤ b)

/-- `x = y` as values: the zeros are equal, a NaN equals nothing. -/
def eq : Binary64 → Binary64 → Bool := compareBy fun a b => decide (a = b)

/-- `x` kept within `low` and `high`; a NaN stays one. -/
def clamp (x low high : Binary64) : Binary64 :=
  if x.lt low then low else if high.lt x then high else x

/-- Positive and finite: a latency that can be counted. -/
def isUsable (x : Binary64) : Bool := zero.lt x && x.isFinite

/-! ## In total -/

/-- The distance from zero in the total order. -/
def totalMagnitude : Binary64 → Int
  | nan _ f => ceiling + f.bits
  | infinity _ => ceiling
  | finite _ m => m.units

/-- The place of a number in the total order. Negative numbers are one further from zero than
their magnitude says, which makes room for -0. -/
def totalPlace (x : Binary64) : Int :=
  if x.isNegative then -x.totalMagnitude - 1 else x.totalMagnitude

def totalLE (x y : Binary64) : Bool := decide (x.totalPlace ≤ y.totalPlace)

/-- The list in total order, equal numbers in their old order. -/
def sort (xs : List Binary64) : List Binary64 := xs.mergeSort totalLE

end LatencyLog.Binary64
