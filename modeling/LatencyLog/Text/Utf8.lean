/-!
# UTF-8

Bytes are read by one machine, `scan`, that goes from byte to byte and puts out the characters. A
piece of input that is no UTF-8 comes out as `none`, once for each longest start of a character
that the next byte cannot continue: the machine has to see no further than that byte.

* `decode?` accepts only bytes that are UTF-8 throughout;
* `decodeLossy` accepts all bytes, and puts U+FFFD where the machine put `none`;
* `encode` writes characters as bytes.

Between characters the machine remembers nothing, and a byte below 0x80 is a character of its own
wherever it stands. So cutting bytes at line feeds and cutting characters at line feeds is the
same thing.
-/

namespace LatencyLog.Text.Utf8

/-- What the machine remembers: nothing, or a character that is not complete. Of that it keeps how
many bytes are owed, the least and the greatest byte that may come next, and the bits so far. -/
inductive State where
  | between
  | within (owed : Nat) (low high : UInt8) (bits : Nat)
deriving DecidableEq

/-- A byte between characters: a character of its own, the first byte of a longer one, or a byte
that begins nothing. The bounds keep out the longer spellings of short characters, the surrogates
and what lies above U+10FFFF. -/
def first (b : UInt8) : List (Option Char) × State :=
  let n := b.toNat
  if n < 0x80 then ([some (Char.ofNat n)], .between)
  else if n < 0xC2 then ([none], .between)
  else if n < 0xE0 then ([], .within 1 0x80 0xBF (n - 0xC0))
  else if n < 0xF0 then
    ([], .within 2 (if n = 0xE0 then 0xA0 else 0x80) (if n = 0xED then 0x9F else 0xBF) (n - 0xE0))
  else if n < 0xF5 then
    ([], .within 3 (if n = 0xF0 then 0x90 else 0x80) (if n = 0xF4 then 0x8F else 0xBF) (n - 0xF0))
  else ([none], .between)

/-- One byte. Where it cannot continue the character that was begun, that start is given up and the
byte is looked at again as if it came first. -/
def step : State → UInt8 → List (Option Char) × State
  | .between, b => first b
  | .within owed low high bits, b =>
    if low ≤ b ∧ b ≤ high then
      let bits := bits * 64 + (b.toNat - 0x80)
      if owed ≤ 1 then ([some (Char.ofNat bits)], .between)
      else ([], .within (owed - 1) 0x80 0xBF bits)
    else
      let (out, state) := first b
      (none :: out, state)

/-- What the end of the input leaves unfinished. -/
def finish : State → List (Option Char)
  | .between => []
  | .within .. => [none]

def scan : State → List UInt8 → List (Option Char)
  | state, [] => finish state
  | state, b :: bs => (step state b).1 ++ scan (step state b).2 bs

/-- The replacement character. -/
def replacement : Char := Char.ofNat 0xFFFD

/-- The characters of any bytes, with U+FFFD for what is no UTF-8. -/
def decodeLossy (bytes : List UInt8) : List Char :=
  (scan .between bytes).map fun c => c.getD replacement

/-- The characters of bytes that are UTF-8. -/
def decode? (bytes : List UInt8) : Option (List Char) := (scan .between bytes).mapM id

def encode (cs : List Char) : List UInt8 := cs.flatMap String.utf8EncodeChar

end LatencyLog.Text.Utf8
