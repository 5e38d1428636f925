import LatencyLog.Text.Characters
import LatencyLog.Toml.Space

/-!
# Quoted text in TOML

Text stands between quotes of one of four kinds: single or double, once or three times. Double
quotes allow escapes. Three quotes allow line ends, and one or two quotes of the same kind, at the
very end too: of five quotes that end a text the first two belong to it.

Every reader here begins behind the opening quotes, and gives the text with what follows the closing
ones.
-/

namespace LatencyLog.Toml

/-- A text that was read, and what follows it. -/
abbrev ReadText := Option (List Char × List Char)

/-- Puts characters in front of what was read. -/
def ReadText.prepend (cs : List Char) (r : ReadText) : ReadText :=
  r.map fun (text, rest) => (cs ++ text, rest)

/-! ## Escapes -/

/-- The character with a number, if there is one. -/
def charOf? (n : Nat) : Option Char := if n.isValidChar then some (Char.ofNat n) else none

/-- An escape behind its backslash, and what follows it. -/
def escape? : List Char → Option (Char × List Char)
  | 'b' :: cs => some ('\x08', cs)
  | 't' :: cs => some ('\t', cs)
  | 'n' :: cs => some ('\n', cs)
  | 'f' :: cs => some ('\x0c', cs)
  | 'r' :: cs => some ('\r', cs)
  | '"' :: cs => some ('"', cs)
  | '\\' :: cs => some ('\\', cs)
  | 'u' :: cs => digits 4 cs
  | 'U' :: cs => digits 8 cs
  | _ => none
where
  digits (n : Nat) (cs : List Char) : Option (Char × List Char) :=
    if n ≤ cs.length then
      ((Text.natOf? 16 (cs.take n)).bind charOf?).map fun c => (c, cs.drop n)
    else none

theorem escape?_length_le {cs rest : List Char} {c : Char} (h : escape? cs = some (c, rest)) :
    rest.length ≤ cs.length := by
  have digits {n : Nat} {cs : List Char} (h : escape?.digits n cs = some (c, rest)) :
      rest.length ≤ cs.length := by
    unfold escape?.digits at h
    split at h
    · obtain ⟨_, _, heq⟩ := Option.map_eq_some_iff.1 h
      cases heq
      exact (List.drop_suffix _ _).length_le
    · cases h
  unfold escape? at h
  split at h
  case h_8 => exact Nat.le_succ_of_le (digits h)
  case h_9 => exact Nat.le_succ_of_le (digits h)
  all_goals cases h
  all_goals exact Nat.le_succ _

/-- What follows the white space up to the next visible character, line ends included. -/
def skipSpace : List Char → List Char
  | [] => []
  | '\n' :: cs => skipSpace cs
  | '\r' :: '\n' :: cs => skipSpace cs
  | c :: cs => if isBlank c then skipSpace cs else c :: cs

theorem skipSpace_length_le (cs : List Char) : (skipSpace cs).length ≤ cs.length := by
  fun_induction skipSpace cs <;> simp only [List.length_cons, List.length_nil] at * <;> omega

/-- What follows a backslash at the end of a line: the white space behind it is skipped, of which
there is at least the line end. -/
def continuation? (cs : List Char) : Option (List Char) := (newLine? (skipBlanks cs)).map skipSpace

theorem continuation?_length_le {cs rest : List Char} (h : continuation? cs = some rest) :
    rest.length ≤ cs.length := by
  obtain ⟨line, hline, rfl⟩ := Option.map_eq_some_iff.1 h
  calc
    (skipSpace line).length ≤ line.length := skipSpace_length_le line
    _ ≤ (skipBlanks cs).length := newLine?_length_le hline
    _ ≤ cs.length := skipBlanks_length_le cs

/-! ## One line -/

/-- A text in double quotes. -/
def basic? (cs : List Char) : ReadText :=
  match cs with
  | [] => none
  | '"' :: rest => some ([], rest)
  | '\\' :: tail =>
    match h : escape? tail with
    | some (c, rest) =>
      have := escape?_length_le h
      ReadText.prepend [c] (basic? rest)
    | none => none
  | c :: rest => if isPrintable c then ReadText.prepend [c] (basic? rest) else none
termination_by cs.length
decreasing_by
  all_goals
    simp only [List.length_cons] at *
    omega

/-- A text in single quotes. -/
def literal? : List Char → ReadText
  | [] => none
  | '\'' :: rest => some ([], rest)
  | c :: rest => if isPrintable c then ReadText.prepend [c] (literal? rest) else none

/-! ## Several lines -/

/-- A run of three or more quotes ends a text. Of four or five, those in front belong to the text;
there cannot be more. -/
def closing (quote : Char) (run : Nat) (rest : List Char) : ReadText :=
  if run ≤ 5 then some (List.replicate (run - 3) quote, rest) else none

/-- How often a character stands at the start of a text. -/
def run (c : Char) (cs : List Char) : Nat := (cs.takeWhile (decide <| · = c)).length

/-- A text in three double quotes. A carriage return in front of a line feed is dropped. -/
def basicLines? (cs : List Char) : ReadText :=
  match cs with
  | [] => none
  | '"' :: tail =>
    let n := run '"' tail
    if n < 2 then ReadText.prepend (List.replicate (n + 1) '"') (basicLines? (tail.drop n))
    else closing '"' (n + 1) (tail.drop n)
  | '\\' :: tail =>
    match hline : continuation? tail with
    | some rest =>
      have := continuation?_length_le hline
      basicLines? rest
    | none =>
      match h : escape? tail with
      | some (c, rest) =>
        have := escape?_length_le h
        ReadText.prepend [c] (basicLines? rest)
      | none => none
  | '\n' :: rest => ReadText.prepend ['\n'] (basicLines? rest)
  | '\r' :: '\n' :: rest => ReadText.prepend ['\n'] (basicLines? rest)
  | c :: rest => if isPrintable c then ReadText.prepend [c] (basicLines? rest) else none
termination_by cs.length
decreasing_by
  all_goals
    simp only [List.length_cons, List.length_drop] at *
    omega

/-- A text in three single quotes. A carriage return in front of a line feed is dropped. -/
def literalLines? (cs : List Char) : ReadText :=
  match cs with
  | [] => none
  | '\'' :: tail =>
    let n := run '\'' tail
    if n < 2 then ReadText.prepend (List.replicate (n + 1) '\'') (literalLines? (tail.drop n))
    else closing '\'' (n + 1) (tail.drop n)
  | '\n' :: rest => ReadText.prepend ['\n'] (literalLines? rest)
  | '\r' :: '\n' :: rest => ReadText.prepend ['\n'] (literalLines? rest)
  | c :: rest => if isPrintable c then ReadText.prepend [c] (literalLines? rest) else none
termination_by cs.length
decreasing_by
  all_goals
    simp only [List.length_cons, List.length_drop] at *
    omega

/-- A text of several lines may begin on the line behind its quotes. -/
def firstLine (cs : List Char) : List Char := (newLine? cs).getD cs

/-- A quoted text in any quotes. -/
def quoted? : List Char → ReadText
  | '"' :: '"' :: '"' :: cs => basicLines? (firstLine cs)
  | '"' :: cs => basic? cs
  | '\'' :: '\'' :: '\'' :: cs => literalLines? (firstLine cs)
  | '\'' :: cs => literal? cs
  | _ => none

end LatencyLog.Toml
