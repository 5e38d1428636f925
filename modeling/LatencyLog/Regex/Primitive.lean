import LatencyLog.Regex.Mode
import LatencyLog.Text.Characters

/-!
# What one place of a regular expression stands for

A `Primitive` is written as a character, or as a backslash and what belongs to it (`escape?`).
Whether it may be written depends on the mode: `isAllowed` for a place of its own, and
`isMember` for a place in a set.
-/

namespace LatencyLog.Regex

inductive Primitive where
  | literal (c : Char)
  /-- A byte in two digits, or the character with this number. -/
  | byte (c : Char)
  | anyChar
  /-- The start or the end of the text or of a line. -/
  | edge
  /-- The start or the end of a word, or the opposite. -/
  | wordEdge
  /-- One letter for digits, for white space or for the characters of a word, or for all others. -/
  | shorthand (negated : Bool)
deriving DecidableEq

namespace Primitive

/-- The character that is meant, if it is one. -/
def char? : Primitive → Option Char
  | literal c => some c
  | byte c => some c
  | _ => none

/-- The primitive may stand for a place of the text. -/
def isAllowed (mode : Mode) : Primitive → Bool
  | literal _ => !(mode.unicode && mode.ignoresCase)
  | byte c => mode.asks c
  | anyChar => mode.unicode
  | edge => true
  | wordEdge => !mode.unicode
  | shorthand negated => !mode.unicode && !negated

/-- The primitive may be in a set. -/
def isMember (mode : Mode) : Primitive → Bool
  | shorthand negated => !mode.unicode && !negated
  | p => p.char?.any mode.asks

end Primitive

/-! ## Escapes -/

/-- So many hexadecimal digits, and what follows them. -/
def digits? (mode : Mode) : Nat → List Char → Option (List Char × List Char)
  | 0, cs => some ([], mode.skip cs)
  | n + 1, cs =>
    match mode.skip cs with
    | c :: rest =>
      if Text.isDigitOf 16 c then (digits? mode n rest).map fun (ds, rest) => (c :: ds, rest)
      else none
    | [] => none

/-- The character whose number so many digits write, and what follows them. -/
def numbered? (mode : Mode) (digits : Nat) (cs : List Char) : Option (Char × List Char) := do
  let (ds, rest) ← digits? mode digits cs
  let n ← Text.natOf? 16 ds
  if n.isValidChar then return (Char.ofNat n, rest) else none

/-- The character that a letter stands for behind a backslash. -/
def control? : Char → Option Char
  | 'a' => some '\x07'
  | 'f' => some '\x0c'
  | 'n' => some '\n'
  | 'r' => some '\r'
  | 't' => some '\t'
  | 'v' => some '\x0b'
  | _ => none

/-- What stands behind a backslash, and what follows it. -/
def escape? (mode : Mode) : List Char → Option (Primitive × List Char)
  | [] => none
  | c :: cs =>
    if c = 'x' then (numbered? mode 2 cs).map fun (c, rest) => (.byte c, rest)
    else if c = 'u' then (numbered? mode 4 cs).map fun (c, rest) => (.literal c, rest)
    else if c = 'U' then (numbered? mode 8 cs).map fun (c, rest) => (.literal c, rest)
    else if ['d', 's', 'w'].contains c then some (.shorthand false, cs)
    else if ['D', 'S', 'W'].contains c then some (.shorthand true, cs)
    else if ['A', 'z'].contains c then some (.edge, cs)
    else if ['b', 'B', '<', '>'].contains c then some (.wordEdge, cs)
    else if c.toNat < 0x80 ∧ !c.isAlphanum then some (.literal c, cs)
    else (control? c).map fun c => (.literal c, cs)

end LatencyLog.Regex
