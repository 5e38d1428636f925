/-!
# Space in TOML

What separates things in a TOML document: blanks, which are spaces and tabs; line ends, which are
line feeds, with a carriage return in front or not; and comments, which reach to the end of their
line. A carriage return on its own and all other control characters are errors wherever they stand.
-/

namespace LatencyLog.Toml

def isBlank (c : Char) : Bool := c = ' ' || c = '\t'

def skipBlanks (cs : List Char) : List Char := cs.dropWhile isBlank

theorem skipBlanks_length_le (cs : List Char) : (skipBlanks cs).length ≤ cs.length :=
  (List.dropWhile_suffix isBlank).length_le

/-- A character that may stand in a comment: no control character but the tab. -/
def isPrintable (c : Char) : Bool := c = '\t' || (decide (' ' ≤ c) && c ≠ '\x7f')

/-- What follows a line end. -/
def newLine? : List Char → Option (List Char)
  | '\n' :: cs => some cs
  | '\r' :: '\n' :: cs => some cs
  | _ => none

theorem newLine?_length_le {cs rest : List Char} (h : newLine? cs = some rest) :
    rest.length ≤ cs.length := by
  unfold newLine? at h
  split at h <;> cases h <;> simp only [List.length_cons] <;> omega

/-- What follows the end of a line that has nothing more to say: blanks and a comment may come
before it. The end of the text ends a line. -/
def lineEnd? (cs : List Char) : Option (List Char) :=
  match skipBlanks cs with
  | '#' :: comment => ending (comment.dropWhile isPrintable)
  | cs => ending cs
where
  ending : List Char → Option (List Char)
    | [] => some []
    | cs => newLine? cs

/-- What follows any mixture of blanks, line ends and comments. A comment that no line end closes is
left where it stops. -/
def skipGap (comment : Bool) : List Char → List Char
  | [] => []
  | '\n' :: cs => skipGap false cs
  | '\r' :: '\n' :: cs => skipGap false cs
  | c :: cs =>
    if comment then if isPrintable c then skipGap true cs else c :: cs
    else if isBlank c then skipGap false cs
    else if c = '#' then skipGap true cs
    else c :: cs

end LatencyLog.Toml
