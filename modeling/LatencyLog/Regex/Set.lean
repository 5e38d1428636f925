import LatencyLog.Regex.Primitive

/-!
# Sets in brackets

A set in a regular expression is a list of members in brackets: characters, ranges of them,
classes such as `[:alpha:]`, and sets again. Two signs each of `&&`, `--` and `~~` make an operation
of what is in front and what follows, from left to right. A set behind `^` holds all other
characters.

Nothing here depends on what is in a set, so of a set that is read only the nesting is kept: how
many brackets, lists and operations lie in each other.
-/

namespace LatencyLog.Regex

/-- The nesting of a list of parts: a list of one part is the part. -/
def nestingOf : List Nat → Nat
  | [] => 0
  | [n] => n
  | ns => ns.foldl max 0 + 1

/-- A set whose bracket is not closed yet. -/
structure OpenSet where
  /-- The nesting of what stands in front of the last operation. -/
  left : Option Nat
  /-- The nesting of each member behind it, the last first. -/
  members : List Nat

namespace OpenSet

/-- A set with nothing in it. -/
def empty : OpenSet := ⟨none, []⟩

def add (set : OpenSet) (nesting : Nat) : OpenSet := { set with members := nesting :: set.members }

/-- The nesting of what is between the brackets. -/
def nesting (set : OpenSet) : Nat :=
  match set.left with
  | none => nestingOf set.members
  | some left => max left (nestingOf set.members) + 1

/-- A set behind one more sign of an operation. -/
def operated (set : OpenSet) : OpenSet := ⟨some set.nesting, []⟩

end OpenSet

/-! ## Members -/

/-- One character, as it is or behind a backslash. -/
def place? (mode : Mode) : List Char → Option (Primitive × List Char)
  | [] => none
  | '\\' :: cs => escape? mode cs
  | c :: cs => some (.literal c, cs)

/-- A dash makes a range with what follows it, unless that is a dash too or the end of the set. -/
def makesRange (mode : Mode) : List Char → Bool
  | '-' :: cs => mode.peek? cs ≠ some ']' && mode.peek? cs ≠ some '-'
  | _ => false

/-- What follows a character or a range of them. -/
def member? (mode : Mode) (cs : List Char) : Option (List Char) := do
  let (first, rest) ← place? mode cs
  let rest := mode.skip rest
  if !first.isMember mode || rest.isEmpty then none
  else if !makesRange mode rest then return rest
  else
    let (last, rest) ← place? mode (mode.skip (rest.drop 1))
    if (← first.char?) ≤ (← last.char?) ∧ last.isMember mode then return rest else none

/-- The names of classes. -/
def classNames : List String :=
  ["alnum", "alpha", "ascii", "blank", "cntrl", "digit", "graph", "lower", "print", "punct",
    "space", "upper", "word", "xdigit"]

/-- Whether a class behind its opening bracket is negated, and what follows it. -/
def class? : List Char → Option (Bool × List Char)
  | ':' :: cs =>
    let negated := decide (cs.head? = some '^')
    let cs := if negated then cs.drop 1 else cs
    match cs.span fun c => decide (c ≠ ':') with
    | (name, ':' :: ']' :: rest) =>
      if classNames.contains (String.ofList name) then some (negated, rest) else none
    | _ => none
  | _ => none

/-- A class may be in a set. -/
def isClassMember (mode : Mode) (negated : Bool) : Bool :=
  if mode.unicode then !mode.ignoresCase else !negated

/-! ## Sets -/

/-- A set with the dashes at the start of a text, and what follows them. -/
def dashes (mode : Mode) (set : OpenSet) : (bound : Nat) → List Char → OpenSet × List Char
  | bound + 1, '-' :: cs => dashes mode (set.add 0) bound (mode.skip cs)
  | _, cs => (set, cs)

/-- The set behind an opening bracket, with the members that only there are characters: dashes, or a
closing bracket. About bytes a set cannot be negated, as it would hold parts of characters. -/
def open? (mode : Mode) (cs : List Char) : Option (OpenSet × List Char) :=
  let cs := mode.skip cs
  let negated := decide (cs.head? = some '^')
  let cs := if negated then mode.skip (cs.drop 1) else cs
  let (set, rest) := dashes mode .empty cs.length cs
  if (negated && !mode.unicode) || (!set.members.isEmpty && !mode.asks '-') then none
  else
    match rest with
    | ']' :: rest =>
      if !set.members.isEmpty then some (set, ']' :: rest)
      else if mode.asks ']' then some (set.add 0, mode.skip rest)
      else none
    | rest => some (set, rest)

/-- The nesting of a set from within, and what follows its closing bracket. The sets around it are
open too, the next one first. A `bound` that is at least the length of the text is never reached,
since every step takes something of it. -/
def close? (mode : Mode) :
    (bound : Nat) → List OpenSet → OpenSet → List Char → Option (Nat × List Char)
  | 0, _, _, _ => none
  | bound + 1, around, set, cs =>
    match mode.skip cs with
    | [] => none
    | ']' :: rest =>
      match around with
      | [] => some (set.nesting + 1, rest)
      | outer :: around => close? mode bound around (outer.add (set.nesting + 1)) rest
    | '[' :: rest =>
      match class? rest with
      | some (negated, rest) =>
        if isClassMember mode negated then close? mode bound around (set.add 0) rest else none
      | none =>
        (open? mode rest).bind fun (inner, rest) => close? mode bound (set :: around) inner rest
    | '&' :: '&' :: rest => close? mode bound around set.operated rest
    | '-' :: '-' :: rest => close? mode bound around set.operated rest
    | '~' :: '~' :: rest => close? mode bound around set.operated rest
    | cs => (member? mode cs).bind fun rest => close? mode bound around (set.add 0) rest

/-- The nesting of a set behind its opening bracket, and what follows it. -/
def set? (mode : Mode) (cs : List Char) : Option (Nat × List Char) :=
  (open? mode cs).bind fun (set, rest) => close? mode (cs.length + 1) [] set rest

end LatencyLog.Regex
