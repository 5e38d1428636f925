import LatencyLog.Binary64.Magnitude

/-!
# Binary64 numbers

The numbers of a latency log are IEEE 754 binary64 numbers, and the library keeps its own type for
them: records are told apart by what their bits say (a negative NaN is not a positive one), and
every law about rounding is a law about one function, `ofQuotient`.

A number is a sign with a magnitude, or an infinity, or a NaN. A NaN has a sign and a fraction. Texts
and operations without a value give the one fraction `canonical`; a record that was made elsewhere
can hold any other.

* `ofQuotient`, `ofNat`, `ofInt`, `ofDecimal` take exact values to the nearest number;
* `bits` is the 64-bit pattern, which tells any two numbers apart.
-/

namespace LatencyLog

/-- What tells NaNs of one sign apart: 52 bits that are not all 0, which would be an infinity. -/
structure Binary64.NanFraction where
  bits : Nat
  pos : 0 < bits
  lt : bits < 1 <<< 52
deriving DecidableEq

namespace Binary64.NanFraction

/-- The first bit alone. -/
def canonical : NanFraction := ⟨1 <<< 51, by decide, by decide⟩

/-- The fraction with its first bit set, as it is behind any operation. -/
def quiet (f : NanFraction) : NanFraction :=
  if h : f.bits < 1 <<< 51 then
    ⟨f.bits + 1 <<< 51, by omega, by simp only [Nat.one_shiftLeft] at h ⊢; omega⟩
  else f

end Binary64.NanFraction

/-- An IEEE 754 binary64 number. -/
inductive Binary64 where
  | nan (negative : Bool) (fraction : Binary64.NanFraction := .canonical)
  | infinity (negative : Bool)
  | finite (negative : Bool) (magnitude : Binary64.Magnitude)
deriving DecidableEq

namespace Binary64

/-! ## From exact values -/

/-- The number nearest to `num / den` units with the given sign; beyond the greatest finite number
lies infinity. -/
def ofQuotient (negative : Bool) (num den : Nat) : Binary64 :=
  if h : roundToGrid num den < ceiling then
    .finite negative ⟨roundToGrid num den, onGrid_roundToGrid num den, h⟩
  else
    .infinity negative

def ofNat (n : Nat) : Binary64 := ofQuotient false (n * unity) 1

def ofInt (n : Int) : Binary64 := ofQuotient (decide (n < 0)) (n.natAbs * unity) 1

/-- Positive zero. -/
def zero : Binary64 := .finite false .zero

/-- Negative zero, where a sum starts: adding any number to it gives that number. -/
def negativeZero : Binary64 := .finite true .zero

def one : Binary64 := ofNat 1

/-- The number nearest to `digits * 10 ^ exponent`. The two early answers keep the powers of ten
small: from 10^309 on everything is infinite, and what is below 2^-1080 is nearest to zero. -/
def ofDecimal (negative : Bool) (digits : Nat) : (exponent : Int) → Binary64
  | .ofNat e =>
    if digits = 0 then .finite negative .zero
    else if 308 < e then .infinity negative
    else ofQuotient negative (digits * Nat.pow 10 e * unity) 1
  | .negSucc e =>
    if digits.log2 + 1080 < 3 * (e + 1) then .finite negative .zero
    else ofQuotient negative (digits * unity) (Nat.pow 10 (e + 1))

/-! ## Kinds of numbers -/

def isNegative : Binary64 → Bool
  | nan s _ => s
  | infinity s => s
  | finite s _ => s

def isNan : Binary64 → Bool
  | nan _ _ => true
  | _ => false

def isFinite : Binary64 → Bool
  | finite _ _ => true
  | _ => false

/-- The value of a finite number in units of 2^-1074. -/
def units? : Binary64 → Option Int
  | finite s m => some (if s then -(m.units : Int) else m.units)
  | _ => none

/-! ## Bit patterns -/

/-- The 63 bits below the sign. A magnitude counts as exponent and fraction at once: above the
first 53 bits, each further bit of length adds one to the exponent field. -/
def payload : Binary64 → Nat
  | nan _ f => 0x7ff <<< 52 + f.bits
  | infinity _ => 0x7ff <<< 52
  | finite _ m => (m.units.log2 - 52) <<< 52 + m.units / gap m.units

/-- The bit pattern of a number, the sign in front. -/
def bits (x : Binary64) : UInt64 :=
  UInt64.ofNat ((if x.isNegative then 1 <<< 63 else 0) + x.payload)

end Binary64

end LatencyLog
