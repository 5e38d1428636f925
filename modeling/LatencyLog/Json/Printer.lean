import LatencyLog.Json.Token

/-!
# Writing JSON

A tree is written as its tokens with white space between them. `compact` puts none. `pretty` starts
a line for every element and member, two spaces further in than what holds it, and one for every
closing bracket; only an empty array or object stays on its line. It looks at two neighbouring
tokens at a time, and keeps count of how many brackets are open.
-/

namespace LatencyLog.Json

namespace Token

def isOpening : Token → Bool
  | leftBracket | leftBrace => true
  | _ => false

def isClosing : Token → Bool
  | rightBracket | rightBrace => true
  | _ => false

/-- A new line inside as many brackets. -/
def newLine (depth : Nat) : List Char := '\n' :: List.replicate (2 * depth) ' '

/-- The white space between two tokens, the first of which leaves as many brackets open. -/
def gap (depth : Nat) (left right : Token) : List Char :=
  if left.isOpening then if right.isClosing then [] else newLine depth
  else if left = comma then newLine depth
  else if right.isClosing then newLine (depth - 1)
  else if left = colon then [' ']
  else []

/-- How many brackets are open behind a token. -/
def depthAfter (depth : Nat) (t : Token) : Nat :=
  if t.isOpening then depth + 1 else if t.isClosing then depth - 1 else depth

end Token

/-- A text under way: its pieces, last first, with the last token written. -/
structure Draft where
  depth : Nat
  last : Option Token
  pieces : List (List Char)

namespace Draft

def empty : Draft := ⟨0, none, []⟩

/-- A token more, behind the white space that it needs. -/
def add (draft : Draft) (t : Token) : Draft where
  depth := t.depthAfter draft.depth
  last := some t
  pieces :=
    t.text ::
      match draft.last with
      | some left => left.gap draft.depth t :: draft.pieces
      | none => draft.pieces

def text (draft : Draft) : List Char := draft.pieces.reverse.flatten

end Draft

def compact (j : Json) : List Char := j.tokens.flatMap Token.text

def pretty (j : Json) : List Char := (j.tokens.foldl Draft.add Draft.empty).text

end LatencyLog.Json
