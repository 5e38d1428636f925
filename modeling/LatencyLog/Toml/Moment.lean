import LatencyLog.Decimal.Literal

/-!
# Dates and times in TOML

A document may hold a date, a time, or both, and with both an offset from universal time. Nothing in
a configuration is a date or a time, but they may stand where a value is ignored. So it matters
where they end and whether they exist (there is no 30th of February), and they are kept as they
are written.
-/

namespace LatencyLog.Toml

/-- A number of so many digits within bounds, and what follows it. -/
def digits? (width least greatest : Nat) (cs : List Char) : Option (Nat × List Char) :=
  let ds := cs.take width
  let n := Decimal.natOfDigits ds
  if ds.length = width ∧ ds.all Char.isDigit ∧ least ≤ n ∧ n ≤ greatest then some (n, cs.drop width)
  else none

/-- What follows a given character. -/
def after? (c : Char) : List Char → Option (List Char)
  | d :: cs => if d = c then some cs else none
  | [] => none

def isLeapYear (year : Nat) : Bool := year % 4 = 0 && (year % 100 ≠ 0 || year % 400 = 0)

def daysOfMonth (year month : Nat) : Nat :=
  if month = 2 then if isLeapYear year then 29 else 28
  else if month = 4 ∨ month = 6 ∨ month = 9 ∨ month = 11 then 30
  else 31

/-- What follows a date. -/
def afterDate? (cs : List Char) : Option (List Char) := do
  let (year, cs) ← digits? 4 0 9999 cs
  let (month, cs) ← digits? 2 1 12 (← after? '-' cs)
  let (_, cs) ← digits? 2 1 (daysOfMonth year month) (← after? '-' cs)
  some cs

/-- What follows a fraction of a second, which need not be there. -/
def afterFraction (cs : List Char) : List Char :=
  match cs with
  | '.' :: c :: rest => if c.isDigit then rest.dropWhile Char.isDigit else cs
  | _ => cs

/-- What follows a time of day. Second 60 is a leap second. -/
def afterTime? (cs : List Char) : Option (List Char) := do
  let (_, cs) ← digits? 2 0 23 cs
  let (_, cs) ← digits? 2 0 59 (← after? ':' cs)
  let (_, cs) ← digits? 2 0 60 (← after? ':' cs)
  some (afterFraction cs)

/-- What follows an offset in hours and minutes. -/
def afterOffset? (cs : List Char) : Option (List Char) := do
  let (_, cs) ← digits? 2 0 23 cs
  let (_, cs) ← digits? 2 0 59 (← after? ':' cs)
  some cs

/-- What follows a time with the offset that it may have behind a date. -/
def afterZonedTime? (cs : List Char) : Option (List Char) :=
  (afterTime? cs).bind fun
    | 'Z' :: rest => some rest
    | 'z' :: rest => some rest
    | '+' :: rest => afterOffset? rest
    | '-' :: rest => afterOffset? rest
    | rest => some rest

/-- What follows a date that may have a time behind it. -/
def afterMoment? (cs : List Char) : Option (List Char) :=
  match afterDate? cs with
  | some (c :: rest) =>
    if c = 'T' ∨ c = 't' ∨ c = ' ' then some ((afterZonedTime? rest).getD (c :: rest))
    else some (c :: rest)
  | some [] => some []
  | none => afterTime? cs

/-- A date or a time as it is written, and what follows it. -/
def moment? (cs : List Char) : Option (List Char × List Char) :=
  (afterMoment? cs).map fun rest => (cs.take (cs.length - rest.length), rest)

end LatencyLog.Toml
