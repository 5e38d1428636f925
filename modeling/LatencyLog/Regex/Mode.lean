import LatencyLog.Text.Characters

/-!
# Modes of a regular expression

How a regular expression is to be read is a matter of letters in it: `(?i)` from there on, and
`(?x-u:…)` for what is inside. Of the seven letters three bear on what may be written, and a `Mode`
holds those.

Patterns here belong to a matcher that works on UTF-8 and has no tables of Unicode. About characters
it knows which are the same, and which come before others; it does not know letters, digits or cases
beyond ASCII. So a pattern about characters may name no such class and no edge of a word, and has no
letter to look for in either case. A pattern about bytes may, as long as it cannot take a part of a
character.
-/

namespace LatencyLog.Regex

structure Mode where
  /-- Letter `i`: the case of letters does not count. -/
  ignoresCase : Bool
  /-- Letter `x`: white space does not count, and `#` begins a comment. -/
  spaced : Bool
  /-- Letter `u`: the pattern is about characters and not about bytes. -/
  unicode : Bool
deriving DecidableEq

namespace Mode

/-- The mode that a pattern begins in. -/
def initial : Mode := ⟨false, false, true⟩

/-- A character, or a set of some, may be asked for in this mode if it is one of ASCII, or if the
mode is about characters. -/
def asks (mode : Mode) (c : Char) : Bool :=
  if mode.unicode then !mode.ignoresCase else decide (c.toNat < 0x80)

/-! ## Letters -/

/-- The state of a setting behind letters, of which a dash parts those that end theirs. -/
def setting (letters : List Char) (letter : Char) (old : Bool) : Bool :=
  if (letters.takeWhile fun c => decide (c ≠ '-')).contains letter then true
  else if letters.contains letter then false
  else old

/-- The mode behind letters. -/
def change (mode : Mode) (letters : List Char) : Mode where
  ignoresCase := setting letters 'i' mode.ignoresCase
  spaced := setting letters 'x' mode.spaced
  unicode := setting letters 'u' mode.unicode

/-- The letters that there are, and the dash. -/
def letters : List Char := "imsUuRx-".toList

/-- Letters are known ones, no two of them the same, and a dash is not the last. -/
def areLetters (cs : List Char) : Bool :=
  cs.all letters.contains && decide cs.Nodup && decide (cs.getLast? ≠ some '-')

/-! ## White space -/

/-- A text without the white space and comments in front. A comment goes up to the end of its
line. -/
def skipSpace : (inComment : Bool) → List Char → List Char
  | _, [] => []
  | true, c :: cs => skipSpace (decide (c ≠ '\n')) cs
  | false, c :: cs =>
    if Text.isBlank c then skipSpace false cs
    else if c = '#' then skipSpace true cs
    else c :: cs

/-- A text without what does not count in front. -/
def skip (mode : Mode) (cs : List Char) : List Char :=
  if mode.spaced then skipSpace false cs else cs

/-- The first character of a text that counts, if one does. Only the mark of a comment is passed
over here, and not what the comment says. -/
def peek? (mode : Mode) (cs : List Char) : Option Char :=
  if mode.spaced then
    match cs.dropWhile Text.isBlank with
    | '#' :: rest => (rest.dropWhile Text.isBlank).head?
    | rest => rest.head?
  else cs.head?

end Mode

end LatencyLog.Regex
