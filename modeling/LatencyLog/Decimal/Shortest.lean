import LatencyLog.Binary64.Basic

/-!
# The shortest decimal that reads back

A number is written with the fewest digits from which it can be read again. Fewer digits mean a
coarser grid: a decimal `digits * 10 ^ exponent` has the fewest digits when its exponent is the
greatest for which any multiple of that power of ten reads back. So the exponents are tried from
above (`exponents`), and on each grid the two multiples next to the number are looked at. If both
read back, the nearer is taken, and `Tie` says what happens half-way.

*Reading back* is `readsBack`: rounding the decimal again, by the very function that reads literals.
That every answer reads back is therefore how `shortest` is built: should no exponent of the list
do, the number is written out in full (`exact`).
-/

namespace LatencyLog

/-- A decimal `digits * 10 ^ exponent`. -/
structure Decimal where
  digits : Nat
  exponent : Int
deriving DecidableEq

namespace Decimal

/-- Which of two equally near decimals is written. -/
inductive Tie where
  | toEven
  | up
deriving DecidableEq

open Binary64

/-- The decimal rounds to the magnitude. -/
def readsBack (m : Magnitude) (d : Decimal) : Bool :=
  decide (ofDecimal false d.digits d.exponent = .finite false m)

/-- The magnitude as a quotient, counted in `10 ^ exponent`. -/
def scaled (m : Magnitude) : (exponent : Int) → Nat × Nat
  | .ofNat e => (m.units, unity * Nat.pow 10 e)
  | .negSucc e => (m.units * Nat.pow 10 (e + 1), unity)

/-- Of the multiples of `10 ^ exponent` next to the magnitude, the nearer that reads back. -/
def neighbour? (tie : Tie) (m : Magnitude) (exponent : Int) : Option Decimal :=
  let (num, den) := scaled m exponent
  let below : Decimal := ⟨num / den, exponent⟩
  let above : Decimal := ⟨num / den + 1, exponent⟩
  match readsBack m below, readsBack m above with
  | false, false => none
  | true, false => some below
  | false, true => some above
  | true, true =>
    if 2 * (num % den) < den then some below
    else if den < 2 * (num % den) then some above
    else
      match tie with
      | .up => some above
      | .toEven => some (if below.digits % 2 = 0 then below else above)

/-- Every exponent worth trying, the greatest first. The first is above the magnitude's leading
digit, as 30103 / 100000 is a little more than the decimal logarithm of 2; the last is below its
seventeenth digit. -/
def exponents (m : Magnitude) : List Int :=
  let top : Int := ((m.units.log2 : Int) - 1073) * 30103 / 100000 + 2
  (List.range 22).map fun (i : Nat) => top - i

/-- All digits of the magnitude: a unit is `5 ^ 1074 * 10 ^ -1074`. -/
def exact (m : Magnitude) : Decimal := ⟨m.units * Nat.pow 5 1074, -1074⟩

/-- The decimal with the fewest digits that reads back as the magnitude, and of those the
nearest. -/
def shortest (tie : Tie) (m : Magnitude) : Decimal :=
  ((exponents m).findSome? (neighbour? tie m)).getD (exact m)

end Decimal

end LatencyLog
