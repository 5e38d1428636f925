import LatencyLog.Binary64.Basic

/-!
# Arithmetic on binary64 numbers

Each operation on finite numbers is the exact one on units, rounded once by `ofQuotient`; what is
left to say is the sign of a zero and what infinities and NaNs do. An operation on a NaN gives that
NaN (the first, of two) with a quiet fraction, and an operation that has no value gives the positive
canonical NaN.

Whole numbers come back out by `toWord`, which cuts off at zero and at 2^64 - 1.
-/

namespace LatencyLog.Binary64

/-! ## Signed operations -/

def neg : Binary64 → Binary64
  | nan s f => nan (!s) f
  | infinity s => infinity !s
  | finite s m => finite (!s) m

/-- The sum. Two zeros of one sign keep it; any other sum that is zero is positive. -/
def add : Binary64 → Binary64 → Binary64
  | nan s f, _ => nan s f.quiet
  | _, nan s f => nan s f.quiet
  | infinity s, infinity t => if s = t then infinity s else nan false
  | infinity s, finite _ _ => infinity s
  | finite _ _, infinity t => infinity t
  | finite s a, finite t b =>
    if s = t then ofQuotient s (a.units + b.units) 1
    else if a.units = b.units then zero
    else if a.units < b.units then ofQuotient t (b.units - a.units) 1
    else ofQuotient s (a.units - b.units) 1

def sub (x y : Binary64) : Binary64 := add x (neg y)

def mul : Binary64 → Binary64 → Binary64
  | nan s f, _ => nan s f.quiet
  | _, nan s f => nan s f.quiet
  | infinity s, infinity t => infinity (s != t)
  | infinity s, finite t b => if b.units = 0 then nan false else infinity (s != t)
  | finite s a, infinity t => if a.units = 0 then nan false else infinity (s != t)
  | finite s a, finite t b => ofQuotient (s != t) (a.units * b.units) unity

def div : Binary64 → Binary64 → Binary64
  | nan s f, _ => nan s f.quiet
  | _, nan s f => nan s f.quiet
  | infinity _, infinity _ => nan false
  | infinity s, finite t _ => infinity (s != t)
  | finite s _, infinity t => finite (s != t) .zero
  | finite s a, finite t b =>
    if b.units = 0 then (if a.units = 0 then nan false else infinity (s != t))
    else ofQuotient (s != t) (a.units * unity) b.units

instance : Neg Binary64 := ⟨neg⟩

instance : Add Binary64 := ⟨add⟩

instance : Sub Binary64 := ⟨sub⟩

instance : Mul Binary64 := ⟨mul⟩

instance : Div Binary64 := ⟨div⟩

/-- The sum of a list from left to right. -/
def sum (xs : List Binary64) : Binary64 := xs.foldl (· + ·) negativeZero

/-! ## Whole numbers -/

/-- The greatest 64-bit word. -/
def maxWord : Nat := 1 <<< 64 - 1

/-- A number as a 64-bit word, by one of the roundings of `Quotient`. What is negative or no number
is 0, and what is too great is the greatest word. -/
def toWord (rounding : Nat → Nat → Nat) : Binary64 → Nat
  | nan _ _ => 0
  | infinity s => if s then 0 else maxWord
  | finite s m => if s then 0 else min maxWord (rounding m.units unity)

/-- The whole part. -/
def floorWord : Binary64 → Nat := toWord (· / ·)

/-- The least word that is not below. -/
def ceilWord : Binary64 → Nat := toWord Quotient.ceil

/-- The nearest word, a half going up. -/
def roundWord : Binary64 → Nat := toWord Quotient.nearestUp

end LatencyLog.Binary64
