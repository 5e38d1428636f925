import LatencyLog.Toml.Moment
import LatencyLog.Toml.Number
import LatencyLog.Toml.Quoted
import LatencyLog.Toml.Table

/-!
# Reading values and keys of TOML

Arrays and inline tables nest, and there is a limit to that: `value?` takes the number of levels
that are left and descends by it. In the same way a key takes the number of names that are left. How
many elements an array or an inline table has is not limited; a `bound` that is at least the length
of the text is never reached, since every element takes something of it.

An array may be spread over lines, with comments, and may end in a comma. An inline table stands on
one line and does not end in a comma.
-/

namespace LatencyLog.Toml

/-- A value that was read, and what follows it. -/
abbrev ReadValue := Option (Value × List Char)

/-! ## Keys -/

/-- A character of a name without quotes. -/
def isBare (c : Char) : Bool := c.isAlphanum || c = '-' || c = '_'

/-- One name of a key, between blanks. -/
def name? (cs : List Char) : ReadText :=
  (match skipBlanks cs with
    | '"' :: rest => basic? rest
    | '\'' :: rest => literal? rest
    | rest =>
      if (rest.takeWhile isBare).isEmpty then none
      else some (rest.takeWhile isBare, rest.dropWhile isBare)).map
    fun (name, rest) => (name, skipBlanks rest)

/-- The names of a key, dots between them, if there are no more than so many. -/
def names? : (left : Nat) → List Char → Option (List String × List Char)
  | 0, _ => none
  | left + 1, cs =>
    match name? cs with
    | some (name, '.' :: rest) =>
      (names? left rest).map fun (names, rest) => (String.ofList name :: names, rest)
    | some (name, rest) => some ([String.ofList name], rest)
    | none => none

/-- The greatest number of names in a key. -/
def maxNames : Nat := 79

def key? (cs : List Char) : Option (Key × List Char) := do
  let (names, rest) ← names? maxNames cs
  some (⟨names.dropLast, ← names.getLast?⟩, rest)

/-! ## Values -/

/-- A value that is no array and no table. -/
def scalar? (cs : List Char) : ReadValue :=
  match cs with
  | 't' :: 'r' :: 'u' :: 'e' :: rest => some (.boolean true, rest)
  | 'f' :: 'a' :: 'l' :: 's' :: 'e' :: rest => some (.boolean false, rest)
  | '"' :: _ | '\'' :: _ => (quoted? cs).map fun (s, rest) => (.text (String.ofList s), rest)
  | cs =>
    match moment? cs with
    | some (source, rest) => some (.moment (String.ofList source), rest)
    | none =>
      match float? cs with
      | some (x, rest) => some (.float x, rest)
      | none => (integer? cs).map fun (n, rest) => (.integer n, rest)

/-- The elements of an array up to its bracket. -/
def elements? (value? : List Char → ReadValue) :
    (bound : Nat) → List Char → Option (List Value × List Char)
  | 0, _ => none
  | bound + 1, cs =>
    match skipGap false cs with
    | ']' :: rest => some ([], rest)
    | first =>
      match value? first with
      | none => none
      | some (v, rest) =>
        match skipGap false rest with
        | ']' :: rest => some ([v], rest)
        | ',' :: rest =>
          (elements? value? bound rest).map fun (vs, rest) => (v :: vs, rest)
        | _ => none

/-- A key and its value. -/
def pair? (value? : List Char → ReadValue) (cs : List Char) :
    Option ((Key × Value) × List Char) := do
  let (key, rest) ← key? cs
  let (v, rest) ← value? (skipBlanks (← after? '=' rest))
  some ((key, v), rest)

/-- The pairs of an inline table up to its brace, at least one. -/
def pairs? (value? : List Char → ReadValue) :
    (bound : Nat) → List Char → Option (List (Key × Value) × List Char)
  | 0, _ => none
  | bound + 1, cs =>
    match pair? value? cs with
    | none => none
    | some (pair, rest) =>
      match skipBlanks rest with
      | '\x7d' :: rest => some ([pair], rest)
      | ',' :: rest => (pairs? value? bound rest).map fun (pairs, rest) => (pair :: pairs, rest)
      | _ => none

/-- An inline table of pairs. -/
def inline? (pairs : List (Key × Value)) : Option Value :=
  (pairs.foldlM (fun (node : Node) (key, v) => node.addAt key v) Node.fresh).map Node.toValue

/-- An array or an inline table behind its opening bracket, with values read by a given reader. -/
def inside? (value? : List Char → ReadValue) (bound : Nat) (bracket : Char) (cs : List Char) :
    ReadValue :=
  if bracket = '[' then (elements? value? bound cs).map fun (vs, rest) => (.array vs, rest)
  else
    match skipBlanks cs with
    | '\x7d' :: rest => some (.table [], rest)
    | cs => do
      let (pairs, rest) ← pairs? value? bound cs
      some (← inline? pairs, rest)

/-- A value with at most so many levels of arrays and inline tables. -/
def value? (bound : Nat) : (levels : Nat) → List Char → ReadValue
  | _, [] => none
  | 0, c :: cs => if c = '[' ∨ c = '\x7b' then none else scalar? (c :: cs)
  | levels + 1, c :: cs =>
    if c = '[' ∨ c = '\x7b' then inside? (value? bound levels) bound c cs else scalar? (c :: cs)

/-- The greatest number of levels of arrays and inline tables in each other. -/
def maxLevels : Nat := 79

end LatencyLog.Toml
