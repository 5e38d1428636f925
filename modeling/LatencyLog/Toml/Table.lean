import LatencyLog.Binary64.Basic

/-!
# Tables of TOML values

A document is a table of values. The order of a table's entries means nothing, and no name occurs
twice in one.

A table comes into being in one of three ways, and how it did decides what may still be added to it:

* a header defines it, as one of `[a]` or as the next element of `[[a]]`. It is never defined again,
  and only the keys below its header go into it;
* a header passes through it: `[a.b]` implies `a`. A header may define it later;
* a dotted key passes through it: `a.b = 1` makes `a`. Further dotted keys may go into it, but no
  header defines it.

In an array of tables, whatever passes through goes into the last element. A value that is written
out, an inline table too, is closed: nothing passes through it. Inside of it, an inline table is
built by the same rules for dotted keys.
-/

namespace LatencyLog.Toml

/-! ## Values -/

inductive Value where
  | text (text : String)
  | integer (n : Int)
  | float (x : Binary64)
  | boolean (b : Bool)
  /-- A date, a time or both, as it is written. -/
  | moment (source : String)
  | array (elements : List Value)
  | table (entries : List (String × Value))

namespace Value

def text? : Value → Option String
  | text s => some s
  | _ => none

/-- The number nearest to a float or an integer. -/
def number? : Value → Option Binary64
  | float x => some x
  | integer n => some (.ofInt n)
  | _ => none

end Value

/-! ## Building tables -/

/-- How a table came into being. -/
inductive Making where
  | defined
  | implied
  | dotted
deriving DecidableEq

/-- What a name stands for in a table that is being built. -/
inductive Node where
  | value (value : Value)
  | table (making : Making) (entries : List (String × Node))
  /-- An array of tables, the last one first. -/
  | tables (elements : List Node)

/-- A name behind a path of names. -/
structure Key where
  path : List String
  name : String

namespace Node

/-- An empty table that is defined. -/
def fresh : Node := table .defined []

/-- Entries with one of them replaced, or added. -/
def set (name : String) (node : Node) : List (String × Node) → List (String × Node)
  | [] => [(name, node)]
  | (n, old) :: rest => if n = name then (n, node) :: rest else (n, old) :: set name node rest

/-- Goes into a table or the last of several to change it. A dotted key does not pass through a
table that a header defines. -/
def enter (making : Making) (change : Node → Option Node) : Node → Option Node
  | value _ => none
  | table made entries =>
    if making = .dotted ∧ made = .defined then none else change (table made entries)
  | tables (last :: before) => (change last).map fun last => tables (last :: before)
  | tables [] => none

/-- Changes the table at the end of a path. Tables that the path lacks are made on the way. -/
def changeAt (making : Making) (change : Node → Option Node) : List String → Node → Option Node
  | [], node => change node
  | name :: names, table made entries =>
    match entries.lookup name with
    | none =>
      (changeAt making change names (table making [])).map fun child =>
        table made (set name child entries)
    | some child =>
      (enter making (changeAt making change names) child).map fun child =>
        table made (set name child entries)
  | _ :: _, _ => none

/-- Adds a value to a table under a new name. The table is the one under the header, or else one
that dotted keys made. -/
def add (key : Key) (v : Value) : Node → Option Node
  | table made entries =>
    if (made = .dotted ↔ key.path = []) ∨ (entries.lookup key.name).isSome then none
    else some (table made (set key.name (value v) entries))
  | _ => none

/-- Adds a value under a key that may be dotted. -/
def addAt (key : Key) (v : Value) (node : Node) : Option Node :=
  changeAt .dotted (add key v) key.path node

/-- Defines a table that is not there or only implied. -/
def define (name : String) : Node → Option Node
  | table made entries =>
    match entries.lookup name with
    | none => some (table made (set name fresh entries))
    | some (table .implied inner) => some (table made (set name (table .defined inner) entries))
    | some _ => none
  | _ => none

/-- Defines one more element of an array of tables. -/
def defineNext (name : String) : Node → Option Node
  | table made entries =>
    match entries.lookup name with
    | none => some (table made (set name (tables [fresh]) entries))
    | some (tables elements) => some (table made (set name (tables (fresh :: elements)) entries))
    | some _ => none
  | _ => none

/-- What has been built, as a value. -/
def toValue : Node → Value
  | value v => v
  | table _ entries => .table (entries.map fun entry => (entry.1, entry.2.toValue))
  | tables elements => .array (elements.map fun element => element.toValue).reverse
termination_by node => sizeOf node
decreasing_by
  · rename_i h
    obtain ⟨name, child⟩ := entry
    have := List.sizeOf_lt_of_mem h
    simp only [table.sizeOf_spec, Prod.mk.sizeOf_spec] at *
    omega
  · have := List.sizeOf_lt_of_mem ‹_›
    simp only [tables.sizeOf_spec]
    omega

end Node

end LatencyLog.Toml
