import LatencyLog.Toml.Reader

/-!
# TOML documents

A document is a list of statements, each on a line of its own: headers, which say what table the
lines below belong to, and pairs of a key and a value. `statements?` reads them, line by line, and
`build?` makes the table that they describe.
-/

namespace LatencyLog.Toml

inductive Statement where
  /-- `[key]` -/
  | header (key : Key)
  /-- `[[key]]` -/
  | nextHeader (key : Key)
  | pair (key : Key) (value : Value)

namespace Statement

/-- The statement at the start of a line, and what follows it on the line. -/
def read? (bound : Nat) : List Char → Option (Statement × List Char)
  | '[' :: '[' :: cs => do
    let (key, rest) ← key? cs
    some (nextHeader key, ← after? ']' (← after? ']' rest))
  | '[' :: cs => do
    let (key, rest) ← key? cs
    some (header key, ← after? ']' rest)
  | cs => (pair? (value? bound maxLevels) cs).map fun ((key, v), rest) => (pair key v, rest)

end Statement

/-- The statements of a text of at most so many lines. A line may hold none. -/
def statementsFrom? (bound : Nat) : (lines : Nat) → List Char → Option (List Statement)
  | _, [] => some []
  | 0, _ => none
  | lines + 1, cs =>
    match lineEnd? cs with
    | some rest => statementsFrom? bound lines rest
    | none =>
      match Statement.read? bound (skipBlanks cs) with
      | none => none
      | some (statement, rest) =>
        match lineEnd? rest with
        | none => none
        | some rest => (statementsFrom? bound lines rest).map (statement :: ·)

/-- The statements of a text. There are no more lines and elements in it than characters. -/
def statements? (cs : List Char) : Option (List Statement) :=
  statementsFrom? cs.length cs.length cs

/-- A document under way: all that is built, and the path to the table under the last header. -/
structure Draft where
  root : Node
  current : List String

namespace Draft

def empty : Draft := ⟨Node.fresh, []⟩

def add? (draft : Draft) : Statement → Option Draft
  | .header key =>
    (draft.root.changeAt .implied (Node.define key.name) key.path).map fun root =>
      ⟨root, key.path ++ [key.name]⟩
  | .nextHeader key =>
    (draft.root.changeAt .implied (Node.defineNext key.name) key.path).map fun root =>
      ⟨root, key.path ++ [key.name]⟩
  | .pair key v =>
    (draft.root.changeAt .implied (Node.addAt key v) draft.current).map fun root =>
      { draft with root }

end Draft

/-- The table that statements describe. -/
def build? (statements : List Statement) : Option Value :=
  (statements.foldlM Draft.add? Draft.empty).map fun draft => draft.root.toValue

/-- A text without the byte order mark that may stand in front of it. -/
def withoutMark : List Char → List Char
  | '\ufeff' :: cs => cs
  | cs => cs

/-- The table that a text describes. -/
def document? (cs : List Char) : Option Value := (statements? (withoutMark cs)).bind build?

end LatencyLog.Toml
