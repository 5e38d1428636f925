import LatencyLog.Json.Token

/-!
# Reading JSON

A text is read in two steps, first into tokens and then into a tree. The second step looks at one
token at a time and keeps what is open around it as a list of frames, innermost first. So depth is
no matter, and each value in a list of tokens can be followed on its own: whatever frames are open,
the tokens of a value lead from where a value is expected to where that value has just ended.
-/

namespace LatencyLog.Json

/-- An array or an object that is still open, with what has been read of it, last first. -/
inductive Frame where
  | array (before : List Json)
  /-- An object, between two members. -/
  | object (before : List (List Char × Json))
  /-- An object, with the value under a key still to come. -/
  | member (before : List (List Char × Json)) (key : List Char)

/-- What may come next. -/
inductive Expect where
  | value
  /-- A first element, or the end of the array. -/
  | element
  | key
  /-- A first key, or the end of the object. -/
  | firstKey
  | colon (key : List Char)
  /-- What goes on behind a value. -/
  | after (value : Json)

/-- A place between two tokens. -/
structure Place where
  frames : List Frame
  expect : Expect

namespace Place

/-- Where a text starts. -/
def start : Place := ⟨[], .value⟩

/-- The first token of a value. -/
def openValue (frames : List Frame) : Token → Option Place
  | .null => some ⟨frames, .after Json.null⟩
  | .bool b => some ⟨frames, .after (Json.bool b)⟩
  | .number literal => some ⟨frames, .after (Json.number literal)⟩
  | .string source => some ⟨frames, .after (Json.string source)⟩
  | .leftBracket => some ⟨.array [] :: frames, .element⟩
  | .leftBrace => some ⟨.object [] :: frames, .firstKey⟩
  | _ => none

/-- The place behind a token. -/
def step : Place → Token → Option Place
  | ⟨frames, .value⟩, t => openValue frames t
  | ⟨.array [] :: frames, .element⟩, .rightBracket => some ⟨frames, .after (Json.array [])⟩
  | ⟨frames, .element⟩, t => openValue frames t
  | ⟨.object [] :: frames, .firstKey⟩, .rightBrace => some ⟨frames, .after (Json.object [])⟩
  | ⟨frames, .firstKey⟩, .string key => some ⟨frames, .colon key⟩
  | ⟨frames, .key⟩, .string key => some ⟨frames, .colon key⟩
  | ⟨.object before :: frames, .colon key⟩, .colon => some ⟨.member before key :: frames, .value⟩
  | ⟨.array before :: frames, .after v⟩, .comma => some ⟨.array (v :: before) :: frames, .value⟩
  | ⟨.array before :: frames, .after v⟩, .rightBracket =>
    some ⟨frames, .after (Json.array (v :: before).reverse)⟩
  | ⟨.member before key :: frames, .after v⟩, .comma =>
    some ⟨.object ((key, v) :: before) :: frames, .key⟩
  | ⟨.member before key :: frames, .after v⟩, .rightBrace =>
    some ⟨frames, .after (Json.object ((key, v) :: before).reverse)⟩
  | _, _ => none

/-- The value of a text, if it ends here. -/
def result? : Place → Option Json
  | ⟨[], .after v⟩ => some v
  | _ => none

end Place

/-- The tree that a list of tokens spells. -/
def ofTokens? (ts : List Token) : Option Json :=
  (ts.foldlM Place.step Place.start).bind Place.result?

/-- The tree that a text spells. -/
def read? (cs : List Char) : Option Json := (Token.lex? cs).bind ofTokens?

end LatencyLog.Json
