import LatencyLog.Decimal.Literal
import LatencyLog.Decimal.Layout
import LatencyLog.Text.Characters

/-!
# Times of day

A log stamps its lines with a time of day and no date, such as `10:00:00.000010`. The second may be
60: a leap second is accepted in every minute, and comes after all of second 59.

A time counts as one natural, `count`: its parts read as one number, the greatest part first. Times
are ordered by it, and it tells any two of them apart.

* `read?` is the grammar of a stamp. Each of the three numbers may have white space in front, has
  one or two digits, and is followed directly by what comes next; a fraction has at least one digit,
  of which the first nine count.
* `text` writes a time as `HH:MM:SS` with no fraction, or with 3, 6 or 9 digits of it: the fewest
  that are exact.
-/

namespace LatencyLog

/-- A time of day to the nanosecond. -/
structure TimeOfDay where
  hour : Nat
  minute : Nat
  second : Nat
  nano : Nat
  hour_lt : hour < 24
  minute_lt : minute < 60
  /-- Second 60 is a leap second. -/
  second_le : second ≤ 60
  nano_lt : nano < 1000000000
deriving DecidableEq

namespace TimeOfDay

/-! ## Order -/

/-- The parts as one number. A minute has room for 61 seconds. -/
def count (t : TimeOfDay) : Nat :=
  ((t.hour * 60 + t.minute) * 61 + t.second) * 1000000000 + t.nano

instance : LE TimeOfDay := ⟨fun s t => s.count ≤ t.count⟩

instance (s t : TimeOfDay) : Decidable (s ≤ t) := inferInstanceAs (Decidable (s.count ≤ t.count))

instance : Hashable TimeOfDay := ⟨fun t => hash t.count⟩

theorem count_injective {s t : TimeOfDay} (h : s.count = t.count) : s = t := by
  obtain ⟨h₁, m₁, s₁, n₁, _, _, _, _⟩ := s
  obtain ⟨h₂, m₂, s₂, n₂, _, _, _, _⟩ := t
  simp only [count] at h
  simp only [mk.injEq]
  omega

/-- Seconds since midnight; a leap second counts as the second before it. -/
def secondOfDay (t : TimeOfDay) : Nat := (t.hour * 60 + t.minute) * 60 + min t.second 59

/-- Nanoseconds into `secondOfDay`, a second and more of them in a leap second. -/
def nanoOfSecond (t : TimeOfDay) : Nat := (t.second - 59) * 1000000000 + t.nano

/-! ## Reading -/

/-- One or two digits, after white space, and the rest. -/
def number? (cs : List Char) : Option (Nat × List Char) :=
  match Text.trimStart cs with
  | c :: d :: rest =>
    if c.isDigit then
      if d.isDigit then some (Decimal.natOfDigits [c, d], rest)
      else some (Decimal.natOfDigits [c], d :: rest)
    else none
  | [c] => if c.isDigit then some (Decimal.natOfDigits [c], []) else none
  | [] => none

/-- The rest of a text that begins with a colon. -/
def colon? : List Char → Option (List Char)
  | ':' :: rest => some rest
  | _ => none

/-- The nanoseconds of a fraction: nine digits, cut off or filled up with zeros. -/
def nanoOfFraction (ds : List Char) : Nat :=
  Decimal.natOfDigits ((ds ++ List.replicate 9 '0').take 9)

/-- The fraction that ends a stamp, in nanoseconds: nothing, or a point and digits. -/
def fraction? : List Char → Option Nat
  | [] => some 0
  | '.' :: ds => if ds.isEmpty || !ds.all Char.isDigit then none else some (nanoOfFraction ds)
  | _ => none

/-- The time with these parts, if they are within bounds. -/
def ofParts? (hour minute second nano : Nat) : Option TimeOfDay :=
  if h : hour < 24 ∧ minute < 60 ∧ second ≤ 60 ∧ nano < 1000000000 then
    some ⟨hour, minute, second, nano, h.1, h.2.1, h.2.2.1, h.2.2.2⟩
  else none

/-- The time that a stamp writes. -/
def read? (cs : List Char) : Option TimeOfDay := do
  let (hour, cs) ← number? cs
  let cs ← colon? cs
  let (minute, cs) ← number? cs
  let cs ← colon? cs
  let (second, cs) ← number? cs
  let nano ← fraction? cs
  ofParts? hour minute second nano

/-! ## Writing -/

/-- The fraction with the fewest of 0, 3, 6 or 9 digits that is exact. -/
def fractionText (nano : Nat) : List Char :=
  if nano = 0 then []
  else if nano % 1000000 = 0 then '.' :: Decimal.padded 3 (nano / 1000000)
  else if nano % 1000 = 0 then '.' :: Decimal.padded 6 (nano / 1000)
  else '.' :: Decimal.padded 9 nano

def text (t : TimeOfDay) : List Char :=
  Decimal.padded 2 t.hour ++ ':' :: Decimal.padded 2 t.minute ++ ':' :: Decimal.padded 2 t.second ++
    fractionText t.nano

end TimeOfDay

end LatencyLog
