import LatencyLog.Text.Characters

/-!
# Text in JSON strings

Between the quotes of a JSON string stands text in which a quote, a backslash and the control
characters below U+0020 are escaped. `escape` writes these with the short escapes where there is
one, as `\u00xx` otherwise, and everything else as it is. `unescape?` reads all escapes, pairs of
surrogates included. It fails on half of a pair, which means no character.
-/

namespace LatencyLog.Json

/-! ## Writing -/

/-- A digit for a number below 16. -/
def hexDigit (n : Nat) : Char := Nat.digitChar n

def escapeChar (c : Char) : List Char :=
  match c with
  | '"' => ['\\', '"']
  | '\\' => ['\\', '\\']
  | '\x08' => ['\\', 'b']
  | '\x0c' => ['\\', 'f']
  | '\n' => ['\\', 'n']
  | '\r' => ['\\', 'r']
  | '\t' => ['\\', 't']
  | c =>
    if c.toNat < 0x20 then ['\\', 'u', '0', '0', hexDigit (c.toNat / 16), hexDigit (c.toNat % 16)]
    else [c]

def escape (cs : List Char) : List Char := cs.flatMap escapeChar

/-! ## Reading -/

/-- The code unit that four hexadecimal digits write. -/
def unit? (a b c d : Char) : Option Nat := Text.natOf? 16 [a, b, c, d]

/-- The character of an escape with one letter. -/
def shortEscape? : Char → Option Char
  | '"' => some '"'
  | '\\' => some '\\'
  | '/' => some '/'
  | 'b' => some '\x08'
  | 'f' => some '\x0c'
  | 'n' => some '\n'
  | 'r' => some '\r'
  | 't' => some '\t'
  | _ => none

def isHighSurrogate (u : Nat) : Bool := decide (0xD800 ≤ u ∧ u < 0xDC00)

def isLowSurrogate (u : Nat) : Bool := decide (0xDC00 ≤ u ∧ u < 0xE000)

/-- The character of a pair of surrogates. -/
def pairChar (high low : Nat) : Char :=
  Char.ofNat (0x10000 + (high - 0xD800) * 0x400 + (low - 0xDC00))

/-- The text that a source means. A high surrogate needs a low one right behind it, and a low
surrogate stands nowhere else. -/
def unescape? : List Char → Option (List Char)
  | [] => some []
  | '\\' :: 'u' :: a :: b :: c :: d :: '\\' :: 'u' :: a' :: b' :: c' :: d' :: rest =>
    match unit? a b c d, unit? a' b' c' d' with
    | some u, some u' =>
      if isHighSurrogate u then
        if isLowSurrogate u' then (unescape? rest).map (pairChar u u' :: ·) else none
      else if isLowSurrogate u then none
      else
        (unescape? ('\\' :: 'u' :: a' :: b' :: c' :: d' :: rest)).map (Char.ofNat u :: ·)
    | _, _ => none
  | '\\' :: 'u' :: a :: b :: c :: d :: rest =>
    match unit? a b c d with
    | some u =>
      if isHighSurrogate u || isLowSurrogate u then none
      else (unescape? rest).map (Char.ofNat u :: ·)
    | none => none
  | '\\' :: e :: rest =>
    match shortEscape? e with
    | some c => (unescape? rest).map (c :: ·)
    | none => none
  | c :: rest => if c = '\\' then none else (unescape? rest).map (c :: ·)

end LatencyLog.Json
