import LatencyLog.Decimal.Literal
import LatencyLog.Text.Characters

/-!
# Numbers in TOML

Digits may be grouped by underscores, each between two digits. A decimal integer begins with no
zero but zero itself; in the other bases there is no sign. Integers have 64 bits.

A float is a decimal integer with a fraction, an exponent or both, and with digits on either side of
its point. One that is too great is an error if it is positive, and `-inf` if it is negative.
-/

namespace LatencyLog.Toml

/-! ## Digits -/

/-- Digits in groups, and what follows them. The underscores are left out. -/
def groupedFrom (isDigit : Char → Bool) : List Char → List Char × List Char
  | '_' :: c :: cs =>
    if isDigit c then
      let (ds, rest) := groupedFrom isDigit cs
      (c :: ds, rest)
    else ([], '_' :: c :: cs)
  | c :: cs =>
    if isDigit c then
      let (ds, rest) := groupedFrom isDigit cs
      (c :: ds, rest)
    else ([], c :: cs)
  | [] => ([], [])

/-- Digits in groups, at least one. -/
def grouped? (isDigit : Char → Bool) : List Char → Option (List Char × List Char)
  | c :: cs =>
    if isDigit c then
      let (ds, rest) := groupedFrom isDigit cs
      some (c :: ds, rest)
    else none
  | [] => none

/-- The digits of a decimal integer: a zero, or digits that begin with none. -/
def wholeDigits? : List Char → Option (List Char × List Char)
  | '0' :: cs => some (['0'], cs)
  | cs => grouped? Char.isDigit cs

/-! ## Integers -/

/-- An integer of 64 bits. -/
def integerOf? (n : Int) : Option Int :=
  if -9223372036854775808 ≤ n ∧ n ≤ 9223372036854775807 then some n else none

/-- An integer in a base other than ten, behind its mark. -/
def radixInteger? (base : Nat) (cs : List Char) : Option (Int × List Char) := do
  let (ds, rest) ← grouped? (Text.isDigitOf base) cs
  let n ← Text.natOf? base ds
  some (← integerOf? n, rest)

def integer? : List Char → Option (Int × List Char)
  | '0' :: 'x' :: cs => radixInteger? 16 cs
  | '0' :: 'o' :: cs => radixInteger? 8 cs
  | '0' :: 'b' :: cs => radixInteger? 2 cs
  | cs => do
    let (negative, unsigned) := Decimal.splitSign cs
    let (ds, rest) ← wholeDigits? unsigned
    let n : Int := Decimal.natOfDigits ds
    some (← integerOf? (if negative then -n else n), rest)

/-! ## Floats -/

/-- A point and its digits, as a literal has them. -/
def fraction? : List Char → Option (List Char × List Char)
  | '.' :: cs => (grouped? Char.isDigit cs).map fun (ds, rest) => ('.' :: ds, rest)
  | _ => none

/-- An exponent, as a literal has it. -/
def exponent? : List Char → Option (List Char × List Char)
  | [] => none
  | c :: cs =>
    if c = 'e' || c = 'E' then
      let (negative, unsigned) := Decimal.splitSign cs
      (grouped? Char.isDigit unsigned).map fun (ds, rest) =>
        ('e' :: (if negative then '-' :: ds else ds), rest)
    else none

/-- What makes a float of the digits of an integer: a fraction, an exponent or both. -/
def floatTail? (cs : List Char) : Option (List Char × List Char) :=
  match exponent? cs with
  | some tail => some tail
  | none => do
    let (point, afterPoint) ← fraction? cs
    let (e, rest) := (exponent? afterPoint).getD ([], afterPoint)
    some (point ++ e, rest)

/-- A number that is too great is none. -/
def floatOf? (x : Binary64) : Option Binary64 := if x = .infinity false then none else some x

def float? (cs : List Char) : Option (Binary64 × List Char) :=
  let (negative, unsigned) := Decimal.splitSign cs
  match unsigned with
  | 'i' :: 'n' :: 'f' :: rest => some (.infinity negative, rest)
  | 'n' :: 'a' :: 'n' :: rest => some (.nan negative, rest)
  | unsigned => do
    let (whole, afterWhole) ← wholeDigits? unsigned
    let (tail, rest) ← floatTail? afterWhole
    let x ← Decimal.literal? ((if negative then ['-'] else []) ++ whole ++ tail)
    some (← floatOf? x, rest)

end LatencyLog.Toml
