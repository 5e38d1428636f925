import LatencyLog.Binary64.Arithmetic
import LatencyLog.Binary64.Order
import LatencyLog.Decimal.Literal
import LatencyLog.Decimal.Layout
import LatencyLog.Text.Characters

/-!
# CPU frequencies

A cycle counter counts cycles, and cycles divided by the clock frequency in GHz are nanoseconds. A
`Frequency` is finite and positive by its type, so the division neither fails nor turns a duration
negative.

A frequency is made from a number (`ofGhz`) or read from text (`read`). What can be wrong with
either is a `FrequencyError`, and its wording is `FrequencyError.message`.
-/

namespace LatencyLog

/-- Why there is no frequency. -/
inductive FrequencyError where
  | notFinite (ghz : Binary64)
  | nonPositive (ghz : Binary64)
  | notANumber (text : String)
deriving DecidableEq

namespace FrequencyError

def message : FrequencyError → String
  | notFinite ghz =>
    "cpu frequency must be a finite number of GHz, got " ++ String.ofList (Decimal.message ghz)
  | nonPositive ghz =>
    "cpu frequency must be greater than zero, got " ++ String.ofList (Decimal.message ghz) ++ " GHz"
  | notANumber text => "invalid cpu frequency '" ++ text ++ "': expected a number of GHz"

end FrequencyError

/-- A clock frequency in GHz. -/
structure Frequency where
  ghz : Binary64
  usable : ghz.isUsable = true
deriving DecidableEq

namespace Frequency

/-- The frequency assumed when none is given: 2.6 GHz. -/
def default : Frequency := ⟨.ofDecimal false 26 (-1), by decide +kernel⟩

instance : Inhabited Frequency := ⟨default⟩

/-- The frequency of so many GHz. -/
def ofGhz (ghz : Binary64) : Except FrequencyError Frequency :=
  if ghz.isFinite then
    if h : ghz.isUsable = true then .ok ⟨ghz, h⟩ else .error (.nonPositive ghz)
  else .error (.notFinite ghz)

/-- The frequency that a text writes, white space around it allowed. -/
def read (text : String) : Except FrequencyError Frequency :=
  match Decimal.literal? (Text.trim text.toList) with
  | some ghz => ofGhz ghz
  | none => .error (.notANumber text)

/-- Cycles as nanoseconds: one division, rounded once. -/
def nanosOfCycles (f : Frequency) (cycles : Binary64) : Binary64 := cycles / f.ghz

/-- The frequency to two places, with its unit. -/
def text (f : Frequency) : String := String.ofList (Decimal.fixed f.ghz) ++ " GHz"

end Frequency

end LatencyLog
