import LatencyLog.Binary64.Basic

/-!
# Numeric literals

The grammar in which a log, a configuration and a command line write a number:

```
literal  = [ "+" | "-" ] ( named | decimal [ exponent ] )
decimal  = digits [ "." [ digits ] ] | "." digits
named    = "inf" | "infinity" | "nan"            in any mixture of cases
exponent = ( "e" | "E" ) [ "+" | "-" ] digits
```

Digits are ASCII. A literal means the number nearest to it, so one that is too great is infinite
and one that is too small is a zero with the literal's sign.
-/

namespace LatencyLog.Decimal

/-- The natural that ASCII digits write. -/
def natOfDigits (cs : List Char) : Nat := Nat.ofDigitChars 10 cs 0

/-- The longest start of a text that holds digits only, and the rest. -/
def spanDigits (cs : List Char) : List Char × List Char :=
  (cs.takeWhile Char.isDigit, cs.dropWhile Char.isDigit)

/-- A leading sign, if there is one: `true` for a minus. -/
def splitSign : List Char → Bool × List Char
  | '-' :: cs => (true, cs)
  | '+' :: cs => (false, cs)
  | cs => (false, cs)

/-- A text that is digits and nothing else, with a sign allowed in front. -/
def signedInt? (cs : List Char) : Option Int :=
  let (negative, ds) := splitSign cs
  if ds.isEmpty || !ds.all Char.isDigit then none
  else some (if negative then -(natOfDigits ds : Int) else natOfDigits ds)

/-- The exponent after the digits: nothing, or a mark and a signed number. -/
def exponent? : List Char → Option Int
  | [] => some 0
  | c :: cs => if c = 'e' || c = 'E' then signedInt? cs else none

/-- The digits after a point, if there is a point, and what follows them. -/
def fractionDigits : List Char → List Char × List Char
  | '.' :: cs => spanDigits cs
  | cs => ([], cs)

/-- An unsigned number in digits: all its digits as one natural, and the power of ten that puts
the point where it was. At least one digit has to be there. -/
def unsigned? (cs : List Char) : Option (Nat × Int) :=
  let (whole, afterWhole) := spanDigits cs
  let (fraction, afterFraction) := fractionDigits afterWhole
  if whole.isEmpty && fraction.isEmpty then none
  else
    (exponent? afterFraction).map fun e =>
      (natOfDigits (whole ++ fraction), e - fraction.length)

/-- The number that a literal writes; `none` for a text that is no literal. -/
def literal? (cs : List Char) : Option Binary64 :=
  let (negative, body) := splitSign cs
  let name := body.map Char.toLower
  if name = "inf".toList || name = "infinity".toList then some (.infinity negative)
  else if name = "nan".toList then some (.nan negative)
  else (unsigned? body).map fun (digits, e) => .ofDecimal negative digits e

end LatencyLog.Decimal
