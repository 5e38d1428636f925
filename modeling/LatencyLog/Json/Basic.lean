import LatencyLog.Binary64.Basic
import LatencyLog.Decimal.Literal
import LatencyLog.Decimal.Layout
import LatencyLog.Json.Escape

/-!
# JSON values

A `Json` is a tree whose leaves keep what was written: a number is its literal, and a string is the
text between its quotes, escapes and all. What a leaf means is asked separately (`number?`,
`text?`), for two reasons. A number means different things to a counter and to a latency. And a
string that escapes half of a surrogate pair is good JSON, but means no text; a reader that skips
such a string must not refuse it.

In the other direction, `ofText`, `ofNat` and `ofFloat` write leaves.
-/

namespace LatencyLog

inductive Json where
  | null
  | bool (value : Bool)
  /-- A number, as its literal. -/
  | number (literal : List Char)
  /-- A string, as the text between its quotes. -/
  | string (source : List Char)
  | array (elements : List Json)
  /-- Members in the order in which they are written, each under the text between its quotes. -/
  | object (members : List (List Char × Json))

namespace Json

def ofText (s : String) : Json := string (escape s.toList)

def ofNat (n : Nat) : Json := number (Nat.toDigits 10 n)

/-- A number that is not finite has no literal, and is written as null. -/
def ofFloat : Binary64 → Json
  | .finite s m => number (Decimal.Layout.json.writeFinite s m)
  | _ => null

/-- Members under names. -/
def ofFields (fields : List (String × Json)) : Json :=
  object (fields.map fun (name, value) => (escape name.toList, value))

/-- The text of a string. -/
def text? : Json → Option String
  | string source => (unescape? source).map String.ofList
  | _ => none

/-- The binary64 number nearest to a number. -/
def number? : Json → Option Binary64
  | number literal => Decimal.literal? literal
  | _ => none

end Json

end LatencyLog
