import LatencyLog.Regex.Set
import LatencyLog.Text.Characters

/-!
# Regular expressions

`isPattern` says whether a text is a regular expression. A regular expression is a list of branches
with `|` between them; a branch is a list of parts; and a part is a primitive, a set, a group, or a
part with `?`, `*` or `+` behind it. Counts in braces are no part of the grammar.

Of a part that is read only two things are kept: how deep it nests, for which there is a limit, and
whether it can be repeated.
-/

namespace LatencyLog.Regex

/-- A part of a branch. -/
structure Part where
  nesting : Nat
  repeatable : Bool

/-- A place in a pattern: what has been read of the group that is open there. -/
structure Place where
  mode : Mode
  /-- The nesting of each branch that is complete, the last first. -/
  branches : List Nat
  /-- The parts of the branch under way, the last first. -/
  parts : List Part

namespace Place

def add (place : Place) (part : Part) : Place := { place with parts := part :: place.parts }

/-- The nesting of the branch under way. -/
def branch (place : Place) : Nat := nestingOf (place.parts.map Part.nesting)

/-- A place behind one more bar. -/
def nextBranch (place : Place) : Place :=
  { place with branches := place.branch :: place.branches, parts := [] }

/-- The nesting of everything in the group. -/
def nesting (place : Place) : Nat := nestingOf (place.branch :: place.branches)

end Place

/-- A state of reading. -/
structure Reading where
  place : Place
  /-- The places where the open groups began, the innermost first. -/
  around : List Place
  /-- The names of all groups so far. -/
  names : List (List Char)

namespace Reading

def add (r : Reading) (part : Part) : Reading := { r with place := r.place.add part }

/-- A state behind the opening of a group. -/
def enter (r : Reading) (mode : Mode) : Reading :=
  { r with place := ⟨mode, [], []⟩, around := r.place :: r.around }

/-- A state behind the end of a group. -/
def leave? (r : Reading) : Option Reading :=
  match r.around with
  | [] => none
  | outer :: around =>
    some { r with place := outer.add ⟨r.place.nesting + 1, true⟩, around := around }

/-- A state behind a sign of repetition. -/
def repeat? (r : Reading) : Option Reading :=
  match r.place.parts with
  | ⟨nesting, true⟩ :: parts =>
    some { r with place := { r.place with parts := ⟨nesting + 1, true⟩ :: parts } }
  | _ => none

/-! ## Groups -/

/-- A name begins with a letter or a low line; behind that, digits, dots and brackets do too. -/
def isName : List Char → Bool
  | [] => false
  | c :: cs =>
    (c = '_' || Text.isAlphabetic c) &&
      cs.all fun c => ['_', '.', '[', ']'].contains c || Text.isAlphanumeric c

/-- A state behind the opening of a group with a name, and what follows it. -/
def named? (r : Reading) (cs : List Char) : Option (Reading × List Char) :=
  match cs.span fun c => decide (c ≠ '>') with
  | (name, '>' :: rest) =>
    if isName name && !r.names.contains name then
      some ({ r with names := name :: r.names }.enter r.place.mode, rest)
    else none
  | _ => none

/-- A state behind letters for the mode, which are for what follows or for a group, and what follows
them. -/
def lettered? (r : Reading) (cs : List Char) : Option (Reading × List Char) :=
  let (letters, rest) := cs.span fun c => decide (c ≠ ':' ∧ c ≠ ')')
  let mode := r.place.mode.change letters
  if !Mode.areLetters letters then none
  else
    match rest with
    | ':' :: rest => some (r.enter mode, rest)
    | ')' :: rest =>
      if letters.isEmpty then none
      else some ({ r with place := { r.place.add ⟨0, false⟩ with mode } }, rest)
    | _ => none

/-- A state behind an opening parenthesis and what belongs to it. There is no looking ahead or back:
`!` and `=` are neither letters for the mode nor the start of a name. -/
def group? (r : Reading) (cs : List Char) : Option (Reading × List Char) :=
  match r.place.mode.skip cs with
  | '?' :: 'P' :: '<' :: rest => r.named? rest
  | '?' :: '<' :: rest => r.named? rest
  | '?' :: rest => r.lettered? rest
  | rest => some (r.enter r.place.mode, rest)

/-! ## Parts -/

/-- A place of the text, and what follows it. -/
def primitive? (mode : Mode) : List Char → Option (Primitive × List Char)
  | '.' :: cs => some (.anyChar, cs)
  | '^' :: cs => some (.edge, cs)
  | '$' :: cs => some (.edge, cs)
  | cs => place? mode cs

/-- A state one step further in a text that is not empty. -/
def step? (r : Reading) (cs : List Char) : Option (Reading × List Char) :=
  match cs with
  | '(' :: rest => r.group? rest
  | ')' :: rest => r.leave?.map fun r => (r, rest)
  | '|' :: rest => some ({ r with place := r.place.nextBranch }, rest)
  | '[' :: rest =>
    (set? r.place.mode rest).map fun (nesting, rest) => (r.add ⟨nesting, true⟩, rest)
  | '\x7b' :: _ => none
  | c :: rest =>
    if ['?', '*', '+'].contains c then
      r.repeat?.map fun r => (r, if rest.head? = some '?' then rest.drop 1 else rest)
    else
      (primitive? r.place.mode (c :: rest)).bind fun (primitive, rest) =>
        if primitive.isAllowed r.place.mode then some (r.add ⟨0, true⟩, rest) else none
  | [] => none

/-- The state at the end of a text. A `bound` that is greater than the length of the text is never
reached, since every step takes something of it. -/
def run? : (bound : Nat) → Reading → List Char → Option Reading
  | 0, _, _ => none
  | bound + 1, r, cs =>
    match r.place.mode.skip cs with
    | [] => some r
    | cs => (r.step? cs).bind fun (r, rest) => run? bound r rest

end Reading

/-! ## Patterns -/

/-- The greatest nesting of a pattern. -/
def maxNesting : Nat := 250

/-- The text is a regular expression. -/
def isPattern (cs : List Char) : Bool :=
  match Reading.run? (cs.length + 1) ⟨⟨.initial, [], []⟩, [], []⟩ cs with
  | some r => r.around.isEmpty && decide (r.place.nesting ≤ maxNesting)
  | none => false

end LatencyLog.Regex
