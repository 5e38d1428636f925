/-!
# File patterns

A pattern is a path in which some characters stand for others. `?` stands for any one character, `*`
for any number of them, `[abx-z]` for one of some and `[!abx-z]` for one of all others; the first
character behind such a bracket is taken as it is, a bracket too. `**` is a component of its own and
stands for any number of directories.

`scan?` reads a pattern or a single component of one. What is wrong with a pattern is a fault at a
position, counted in characters.
-/

namespace LatencyLog.Glob

/-! ## Faults -/

inductive Fault where
  | tooManyStars
  | recursiveInComponent
  | openRange
deriving DecidableEq

def Fault.message : Fault → String
  | tooManyStars => "wildcards are either regular `*` or recursive `**`"
  | recursiveInComponent => "recursive wildcards must form a single path component"
  | openRange => "invalid range pattern"

/-- A pattern that means nothing. -/
structure PatternError where
  pattern : String
  position : Nat
  fault : Fault
deriving DecidableEq

namespace PatternError

/-- The error without the pattern. -/
def cause (e : PatternError) : String :=
  "Pattern syntax error near position " ++ toString e.position ++ ": " ++ e.fault.message

def message (e : PatternError) : String :=
  "glob pattern error: " ++ e.pattern ++ ": " ++ e.cause

end PatternError

/-! ## Pieces -/

/-- What one part of a pattern stands for. Sets of characters are lists of ranges, ends
included. -/
inductive Piece where
  | char (c : Char)
  | anyChar
  | oneOf (ranges : List (Char × Char))
  | noneOf (ranges : List (Char × Char))
  | anySequence
  | anyDirectories
deriving DecidableEq

/-- The ranges that the text between two brackets lists. -/
def rangesOf : List Char → List (Char × Char)
  | a :: '-' :: b :: rest => (a, b) :: rangesOf rest
  | a :: rest => (a, a) :: rangesOf rest
  | [] => []

/-- The text up to the first closing bracket, and what follows that. -/
def toBracket? : List Char → Option (List Char × List Char)
  | [] => none
  | ']' :: rest => some ([], rest)
  | c :: rest => (toBracket? rest).map fun (inside, rest) => (c :: inside, rest)

theorem length_of_toBracket? {cs inside rest : List Char}
    (h : toBracket? cs = some (inside, rest)) : cs.length = inside.length + 1 + rest.length := by
  induction cs generalizing inside with
  | nil => simp [toBracket?] at h
  | cons c cs ih =>
    by_cases close : c = ']'
    · subst close
      simp only [toBracket?, Option.some.injEq, Prod.mk.injEq] at h
      simp [← h.1, ← h.2]; omega
    · simp only [toBracket?, Option.map_eq_some_iff, Prod.mk.injEq] at h
      obtain ⟨⟨inside', rest'⟩, found, rfl, rfl⟩ := h
      simp [ih found]; omega

/-- The piece behind an opening bracket, the number of characters behind the bracket that it takes,
and what follows it. -/
def set? : List Char → Option (Piece × Nat × List Char)
  | '!' :: c :: cs =>
    (toBracket? cs).map fun (inside, rest) =>
      (.noneOf (rangesOf (c :: inside)), inside.length + 3, rest)
  | ['!'] => none
  | c :: cs =>
    (toBracket? cs).map fun (inside, rest) =>
      (.oneOf (rangesOf (c :: inside)), inside.length + 2, rest)
  | [] => none

theorem length_of_set? {cs rest : List Char} {piece : Piece} {taken : Nat}
    (h : set? cs = some (piece, taken, rest)) : cs.length = taken + rest.length := by
  unfold set? at h
  split at h
  · simp only [Option.map_eq_some_iff, Prod.mk.injEq] at h
    obtain ⟨⟨inside, _⟩, found, rfl, rfl, rfl⟩ := h
    simp [length_of_toBracket? found]; omega
  · contradiction
  · simp only [Option.map_eq_some_iff, Prod.mk.injEq] at h
    obtain ⟨⟨inside, _⟩, found, rfl, rfl, rfl⟩ := h
    simp [length_of_toBracket? found]; omega
  · contradiction

/-- Whether a component starts behind a character, or at the start. -/
def startsBehind (previous : Option Char) : Bool := previous.all fun c => decide (c = '/')

/-- Whether a component ends in front of a text. -/
def endsBefore : List Char → Bool
  | [] => true
  | c :: _ => decide (c = '/')

/-- The pieces of a text, given the character in front of it and its position. -/
def scan? (previous : Option Char) (position : Nat) (cs : List Char) :
    Except (Nat × Fault) (List Piece) :=
  match cs with
  | [] => .ok []
  | '?' :: rest => (scan? (some '?') (position + 1) rest).map (.anyChar :: ·)
  | '*' :: '*' :: '*' :: _ => .error (position + 2, .tooManyStars)
  | '*' :: '*' :: rest =>
    if !startsBehind previous then .error (position - 1, .recursiveInComponent)
    else if !endsBefore rest then .error (position + 2, .recursiveInComponent)
    else (scan? (some '*') (position + 2) rest).map (.anyDirectories :: ·)
  | '*' :: rest => (scan? (some '*') (position + 1) rest).map (.anySequence :: ·)
  | '[' :: tail =>
    match found : set? tail with
    | none => .error (position, .openRange)
    | some (piece, taken, rest) =>
      (scan? (some ']') (position + 1 + taken) rest).map (piece :: ·)
  | c :: rest => (scan? (some c) (position + 1) rest).map (.char c :: ·)
termination_by cs.length
decreasing_by
  · simp
  · simp only [List.length_cons]
    omega
  · simp
  · have := length_of_set? found
    simp only [List.length_cons]
    omega
  · simp

/-! ## Matching

Pieces are matched from the last one on, against all rests of a name at once. What is known of them
is a table with an answer for each rest, the whole name first and the empty rest last; a piece in
front of them turns their table into a new one. So every piece looks at every character once,
however many of the pieces stand for sequences.
-/

def inRanges (ranges : List (Char × Char)) (c : Char) : Bool :=
  ranges.any fun (low, high) => decide (low ≤ c ∧ c ≤ high)

namespace Piece

/-- The character that a piece stands for may be this one. -/
def allows : Piece → Char → Bool
  | char c, d => decide (c = d)
  | anyChar, _ => true
  | oneOf ranges, d => inRanges ranges d
  | noneOf ranges, d => !inRanges ranges d
  | anySequence, _ => false
  | anyDirectories, _ => false

/-- The table of a piece and those behind it, from the table of those behind it. -/
def inFront (piece : Piece) : List Char → List Bool → List Bool
  | c :: name, here :: later =>
    let rest := piece.inFront name later
    let accepted := if piece = anySequence then here || rest.headD false
      else piece.allows c && later.headD false
    accepted :: rest
  | _, table => if piece = anySequence then table else [false]

end Piece

/-- The table of no pieces, which stand for the empty text only. -/
def emptyTable (name : List Char) : List Bool := name.map (fun _ => false) ++ [true]

/-- The table of pieces: whether they stand for each rest of a name. -/
def table (pieces : List Piece) (name : List Char) : List Bool :=
  pieces.foldr (fun piece behind => piece.inFront name behind) (emptyTable name)

/-- The pieces of a component stand for this name. -/
def accepts (pieces : List Piece) (name : List Char) : Bool := (table pieces name).headD false

/-- The first answer of a table is that for the whole name, and the others are those for the name
without its first character. -/
theorem table_cons (pieces : List Piece) (c : Char) (name : List Char) :
    table pieces (c :: name) = accepts pieces (c :: name) :: table pieces name := by
  have tail : ∃ b, table pieces (c :: name) = b :: table pieces name := by
    induction pieces with
    | nil => exact ⟨false, rfl⟩
    | cons piece pieces ih =>
      obtain ⟨b, h⟩ := ih
      simp only [table, List.foldr_cons] at h ⊢
      rw [h]
      exact ⟨_, rfl⟩
  obtain ⟨b, h⟩ := tail
  simp [accepts, h]

theorem accepts_nil (name : List Char) : accepts [] name = name.isEmpty := by
  cases name <;> rfl

/-- A piece for one character takes the first of the name. -/
theorem accepts_cons_cons {piece : Piece} (h : piece ≠ .anySequence) (pieces : List Piece)
    (c : Char) (name : List Char) :
    accepts (piece :: pieces) (c :: name) = (piece.allows c && accepts pieces name) := by
  have := table_cons pieces c name
  simp only [accepts, table, List.foldr_cons] at this ⊢
  rw [this]
  simp [Piece.inFront, h]

theorem accepts_cons_nil {piece : Piece} (h : piece ≠ .anySequence) (pieces : List Piece) :
    accepts (piece :: pieces) [] = false := by
  simp [accepts, table, Piece.inFront, h]

/-- A piece for a sequence takes nothing, or the first character and then again a sequence. -/
theorem accepts_anySequence_cons (pieces : List Piece) (c : Char) (name : List Char) :
    accepts (.anySequence :: pieces) (c :: name) =
      (accepts pieces (c :: name) || accepts (.anySequence :: pieces) name) := by
  have := table_cons pieces c name
  simp only [accepts, table, List.foldr_cons] at this ⊢
  rw [this]
  simp [Piece.inFront]

theorem accepts_anySequence_nil (pieces : List Piece) :
    accepts (.anySequence :: pieces) [] = accepts pieces [] := by
  simp [accepts, table, Piece.inFront]

/-- The name that pieces stand for, if they stand for themselves. -/
def name? (pieces : List Piece) : Option String :=
  (pieces.mapM fun (piece : Piece) => match piece with
    | .char c => some c
    | _ => none).map String.ofList

/-! ## Patterns -/

/-- A component of a pattern. -/
inductive Component where
  | directories
  | named (pieces : List Piece)
deriving DecidableEq

/-- A pattern that is read. -/
structure Pattern where
  absolute : Bool
  components : List Component
  /-- The pattern ends in a slash and stands for directories only. -/
  directoriesOnly : Bool

namespace Pattern

/-- The component with these pieces. -/
def componentOf (pieces : List Piece) : Component :=
  if .anyDirectories ∈ pieces then .directories else .named pieces

/-- The texts of the components. A slash at the end starts no component more. -/
def componentTexts (cs : List Char) : List (List Char) :=
  let parts := cs.splitOn '/'
  if parts.getLast? = some [] then parts.dropLast else parts

/-- A pattern for nothing is a pattern with one empty component. -/
def orEmpty (texts : List (List Char)) : List (List Char) := if texts.isEmpty then [[]] else texts

/-- Reads a pattern: all of it, to find its faults where they are, and then each component. -/
def read? (pattern : String) : Except PatternError Pattern := do
  let fault (e : Nat × Fault) : PatternError := ⟨pattern, e.1, e.2⟩
  let cs := pattern.toList
  let absolute := decide (cs.head? = some '/')
  let _ ← (scan? none 0 cs).mapError fault
  let texts := orEmpty (componentTexts (if absolute then cs.drop 1 else cs))
  let components ← texts.mapM fun text => ((scan? none 0 text).map componentOf).mapError fault
  return ⟨absolute, components, decide (cs.getLast? = some '/')⟩

end Pattern

end LatencyLog.Glob
