import LatencyLog.Decimal.Shortest

/-!
# Writing numbers

Three texts of a number occur. The JSON report and the messages both write the shortest decimal,
and differ in where the point may stand: that is a `Layout`. The text report writes two decimal
places of the exact value (`fixed`).

All three write `-0` with its sign. Only the messages and the text report can meet a number that is
not finite; they call it `NaN`, `inf` or `-inf`.
-/

namespace LatencyLog.Decimal

/-! ## The shortest digits, laid out -/

/-- Where the point and the exponent go. `point` below is the number of digits in front of the
decimal point, were the number written without an exponent. -/
structure Layout where
  /-- Written without an exponent. -/
  positional : (point : Int) → Bool
  /-- A whole number without exponent ends in `.0`. -/
  wholeEnding : List Char
  tie : Tie

/-- Numbers in JSON: without an exponent from 0.00001 up to sixteen digits. -/
def Layout.json : Layout where
  positional point := decide (-5 < point ∧ point ≤ 16)
  wholeEnding := ['.', '0']
  tie := .toEven

/-- Numbers in messages: never with an exponent, and whole numbers without a point. -/
def Layout.message : Layout where
  positional _ := true
  wholeEnding := []
  tie := .up

def zeros (n : Nat) : List Char := List.replicate n '0'

/-- Digits with the point after the first `point` of them, zeros filling up. -/
def writePositional (ds : List Char) (point : Int) (wholeEnding : List Char) : List Char :=
  if ds.length ≤ point then ds ++ zeros (point.toNat - ds.length) ++ wholeEnding
  else if 0 < point then ds.take point.toNat ++ '.' :: ds.drop point.toNat
  else '0' :: '.' :: zeros (-point).toNat ++ ds

/-- Digits with the point after the first, and an exponent that always carries a sign. -/
def writeScientific (ds : List Char) (point : Int) : List Char :=
  let exponent := point - 1
  let sign := if exponent < 0 then '-' else '+'
  let fraction := match ds.drop 1 with
    | [] => []
    | rest => '.' :: rest
  ds.take 1 ++ fraction ++ 'e' :: sign :: Nat.toDigits 10 exponent.natAbs

def Layout.writeDecimal (layout : Layout) (d : Decimal) : List Char :=
  let ds := Nat.toDigits 10 d.digits
  let point := ds.length + d.exponent
  if layout.positional point then writePositional ds point layout.wholeEnding
  else writeScientific ds point

def minus (negative : Bool) : List Char := if negative then ['-'] else []

/-- A finite number with the fewest digits; zero is the digit 0. -/
def Layout.writeFinite (layout : Layout) (negative : Bool) (m : Binary64.Magnitude) : List Char :=
  minus negative ++
    if m.units = 0 then '0' :: layout.wholeEnding
    else layout.writeDecimal (shortest layout.tie m)

/-- The names of what is not finite. -/
def writeSpecial (nan negative : Bool) : List Char :=
  if nan then "NaN".toList else minus negative ++ "inf".toList

/-- A number as a message shows it. -/
def message : Binary64 → List Char
  | .nan s _ => writeSpecial true s
  | .infinity s => writeSpecial false s
  | .finite s m => Layout.message.writeFinite s m

/-! ## Fixed places -/

/-- At least `width` digits, zeros in front. -/
def padded (width n : Nat) : List Char :=
  let ds := Nat.toDigits 10 n
  zeros (width - ds.length) ++ ds

/-- The exact value rounded to two decimal places, a tie going to the even neighbour. -/
def fixed : Binary64 → List Char
  | .nan s _ => writeSpecial true s
  | .infinity s => writeSpecial false s
  | .finite s m =>
    let hundredths := Quotient.nearestEven (m.units * 100) Binary64.unity
    minus s ++ Nat.toDigits 10 (hundredths / 100) ++ '.' :: padded 2 (hundredths % 100)

end LatencyLog.Decimal
