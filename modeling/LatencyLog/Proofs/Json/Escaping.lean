import LatencyLog.Json.Basic
import LatencyLog.Json.Token

/-!
# Text between quotes

A character stands in a string in one of three ways: behind a backslash as a letter, behind a backslash
as a number, or as itself. `Escaped` lists them with what a reader has to know of each. Two readers go over
a string, one for its end (`Token.stringRest?`) and one for its text (`unescape?`); each takes what is
written for one character as a whole, whatever follows it, so each takes a string character by character.

A tree writes a name escaped, and a reader compares names as texts. Escaping keeps names apart, so the fields
that a reader finds are those that were written (`mapM_named?`).
-/

namespace LatencyLog.Json

/-- A character, and how it is written. -/
inductive Escaped (c : Char) : List Char → Prop where
  | letter {e : Char} (means : shortEscape? e = some c) : Escaped c ['\\', e]
  | number {x y : Char} (means : unit? '0' '0' x y = some c.toNat) (control : c.toNat < 0x20) :
    Escaped c ['\\', 'u', '0', '0', x, y]
  | plain (quote : c ≠ '"') (backslash : c ≠ '\\') (printable : 0x20 ≤ c.toNat) : Escaped c [c]

/-! ## Writing -/

theorem unit?_hexDigits :
    ∀ n < 0x20, unit? '0' '0' (hexDigit (n / 16)) (hexDigit (n % 16)) = some n := by
  decide

theorem escaped_escapeChar (c : Char) : Escaped c (escapeChar c) := by
  unfold escapeChar
  split
  case h_8 hquote hbackslash _ _ _ _ _ =>
    split
    case isTrue hcontrol => exact .number (unit?_hexDigits _ hcontrol) hcontrol
    case isFalse hcontrol => exact .plain hquote hbackslash (Nat.le_of_not_lt hcontrol)
  all_goals exact .letter rfl

/-! ## Reading -/

theorem shortEscape?_ne_u {e c : Char} (h : shortEscape? e = some c) : e ≠ 'u' := by
  rintro rfl
  cases h

/-- What starts with a number that is none is no text. -/
theorem unescape?_of_unit_none {a b c d : Char} (hu : unit? a b c d = none) (rest : List Char) :
    unescape? ('\\' :: 'u' :: a :: b :: c :: d :: rest) = none := by
  rw [unescape?.eq_def]
  split
  case h_1 heq => cases heq
  case h_2 heq =>
    cases heq
    rw [hu]
  case h_3 heq =>
    cases heq
    rw [hu]
  case h_4 hnumber heq =>
    cases heq
    exact (hnumber _ _ _ _ _ rfl rfl).elim
  case h_5 hnumber _ heq =>
    cases heq
    exact (hnumber _ _ _ _ _ rfl rfl).elim

/-- A number that is no surrogate means a character by itself, also where another number follows. -/
theorem unescape?_of_unit {a b c d : Char} {u : Nat} (hu : unit? a b c d = some u)
    (hhigh : isHighSurrogate u = false) (hlow : isLowSurrogate u = false) (rest : List Char) :
    unescape? ('\\' :: 'u' :: a :: b :: c :: d :: rest) =
      (unescape? rest).map (Char.ofNat u :: ·) := by
  rw [unescape?.eq_def]
  split
  case h_1 heq => cases heq
  case h_2 a' b' c' d' _ heq =>
    cases heq
    rw [hu]
    cases hu' : unit? a' b' c' d' with
    | some u' =>
      dsimp only
      rw [hhigh, hlow]
      rfl
    | none => rw [unescape?_of_unit_none hu']; rfl
  case h_3 heq =>
    cases heq
    rw [hu]
    dsimp only
    rw [hhigh, hlow]
    rfl
  case h_4 hnumber heq =>
    cases heq
    exact (hnumber _ _ _ _ _ rfl rfl).elim
  case h_5 hnumber _ heq =>
    cases heq
    exact (hnumber _ _ _ _ _ rfl rfl).elim

theorem unescape?_of_letter {c e : Char} (he : shortEscape? e = some c) (rest : List Char) :
    unescape? ('\\' :: e :: rest) = (unescape? rest).map (c :: ·) := by
  have hne := shortEscape?_ne_u he
  rw [unescape?]
  · rw [he]
  · rintro _ _ _ _ _ _ _ _ _ rfl
    exact absurd rfl hne
  · rintro _ _ _ _ _ rfl
    exact absurd rfl hne

theorem unescape?_of_plain {c : Char} (hc : c ≠ '\\') (rest : List Char) :
    unescape? (c :: rest) = (unescape? rest).map (c :: ·) := by
  rw [unescape?]
  · rw [if_neg hc]
  all_goals
    intros
    exact absurd ‹_› hc

/-- What is written for a character is read as that character. -/
theorem Escaped.unescape? {c : Char} {source : List Char} (h : Escaped c source) (rest : List Char) :
    Json.unescape? (source ++ rest) = (Json.unescape? rest).map (c :: ·) := by
  cases h with
  | letter means => exact unescape?_of_letter means rest
  | number means control =>
    have hhigh : isHighSurrogate c.toNat = false := decide_eq_false (by omega)
    have hlow : isLowSurrogate c.toNat = false := decide_eq_false (by omega)
    have hread := unescape?_of_unit means hhigh hlow rest
    rwa [Char.ofNat_toNat] at hread
  | plain _ backslash _ => exact unescape?_of_plain backslash rest

/-- **A text is what its source means.** -/
theorem unescape?_escape (cs : List Char) : unescape? (escape cs) = some cs := by
  induction cs with
  | nil => rfl
  | cons c cs ih =>
    rw [escape, List.flatMap_cons, (escaped_escapeChar c).unescape?, ← escape, ih]
    rfl

/-! ## Ends -/

namespace Token

theorem stringRest?_of_unit {a b c d : Char} (hu : (unit? a b c d).isSome = true) (rest : List Char) :
    stringRest? ('\\' :: 'u' :: a :: b :: c :: d :: rest) =
      (stringRest? rest).map fun (source, rest) =>
        ('\\' :: 'u' :: a :: b :: c :: d :: source, rest) := by
  rw [stringRest?, if_pos hu]

theorem stringRest?_of_letter {e : Char} (he : (shortEscape? e).isSome = true) (rest : List Char) :
    stringRest? ('\\' :: e :: rest) =
      (stringRest? rest).map fun (source, rest) => ('\\' :: e :: source, rest) := by
  rw [stringRest?]
  · rw [if_pos he]
  · rintro _ _ _ _ _ rfl
    cases he

theorem stringRest?_of_plain {c : Char} (hquote : c ≠ '"') (hbackslash : c ≠ '\\')
    (hprintable : 0x20 ≤ c.toNat) (rest : List Char) :
    stringRest? (c :: rest) =
      (stringRest? rest).map fun (source, rest) => (c :: source, rest) := by
  rw [stringRest?]
  · rw [if_neg]
    simp [hbackslash, hprintable]
  all_goals
    intros
    contradiction

end Token

/-- What is written for a character does not end a string. -/
theorem Escaped.stringRest? {c : Char} {source : List Char} (h : Escaped c source)
    (rest : List Char) :
    Token.stringRest? (source ++ rest) =
      (Token.stringRest? rest).map fun (more, rest) => (source ++ more, rest) := by
  cases h with
  | letter means => exact Token.stringRest?_of_letter (by rw [means]; rfl) rest
  | number means _ => exact Token.stringRest?_of_unit (by rw [means]; rfl) rest
  | plain quote backslash printable =>
    exact Token.stringRest?_of_plain quote backslash printable rest

/-- **A string ends at its closing quote**, whatever its text. -/
theorem stringRest?_escape (cs rest : List Char) :
    Token.stringRest? (escape cs ++ '"' :: rest) = some (escape cs, rest) := by
  induction cs with
  | nil => rfl
  | cons c cs ih =>
    rw [escape, List.flatMap_cons, List.append_assoc, (escaped_escapeChar c).stringRest?, ← escape, ih]
    rfl

/-! ## Fields under names -/

/-- **The text of a written text is the text.** -/
@[simp]
theorem text?_ofText (s : String) : (ofText s).text? = some s := by
  rw [ofText, text?, unescape?_escape, Option.map_some, String.ofList_toList]

/-- A member under the text of its name. -/
def named? (m : List Char × Json) : Option (String × Json) :=
  (unescape? m.1).map fun name => (String.ofList name, m.2)

/-- **Fields are found under their names.** -/
theorem mapM_named? (fields : List (String × Json)) :
    (fields.map fun (name, value) => (escape name.toList, value)).mapM named? = some fields := by
  induction fields with
  | nil => rfl
  | cons f fields ih =>
    have hf : named? (escape f.1.toList, f.2) = some f := by
      rw [named?, unescape?_escape, Option.map_some, String.ofList_toList]
    rw [List.map_cons, List.mapM_cons, ih]
    show (named? (escape f.1.toList, f.2)).bind _ = _
    rw [hf]
    rfl

end LatencyLog.Json
