import LatencyLog.Json.Basic

/-!
# JSON tokens

Between a JSON tree and its text lie the tokens. A tree has one list of tokens (`Json.tokens`); its
texts differ in the white space between them, and `Token.lex?` takes any of these texts back to the
list.

A number reaches as far as the grammar of numbers allows, so what follows a number in a text must
not continue it. No two values stand side by side in `Json.tokens`, and no punctuation continues a
number.
-/

namespace LatencyLog.Json

inductive Token where
  | leftBracket
  | rightBracket
  | leftBrace
  | rightBrace
  | comma
  | colon
  | null
  | bool (value : Bool)
  | number (literal : List Char)
  | string (source : List Char)
deriving DecidableEq

/-! ## Tokens of a tree -/

/-- The tokens of a tree, in order. -/
def tokens : Json → List Token
  | null => [.null]
  | bool b => [.bool b]
  | number literal => [.number literal]
  | string source => [.string source]
  | array elements =>
    .leftBracket ::
      List.intercalate [.comma] (elements.map fun x => x.tokens) ++ [.rightBracket]
  | object members =>
    .leftBrace ::
      List.intercalate [.comma] (members.map fun m => .string m.1 :: .colon :: m.2.tokens) ++
        [.rightBrace]
termination_by j => sizeOf j
decreasing_by
  · have := List.sizeOf_lt_of_mem ‹_›
    simp only [array.sizeOf_spec]
    omega
  · rename_i h
    obtain ⟨name, value⟩ := m
    have := List.sizeOf_lt_of_mem h
    simp only [object.sizeOf_spec, Prod.mk.sizeOf_spec] at *
    omega

namespace Token

def text : Token → List Char
  | leftBracket => ['[']
  | rightBracket => [']']
  | leftBrace => ['\x7b']
  | rightBrace => ['\x7d']
  | comma => [',']
  | colon => [':']
  | null => "null".toList
  | bool true => "true".toList
  | bool false => "false".toList
  | number literal => literal
  | string source => '"' :: source ++ ['"']

/-! ## Tokens of a text -/

/-- White space between tokens. -/
def isSpace (c : Char) : Bool := c = ' ' || c = '\n' || c = '\r' || c = '\t'

/-- The rest of a string behind its opening quote: the source up to the closing quote, and what
follows that. Escapes must be well formed, and control characters must be escaped. -/
def stringRest? : List Char → Option (List Char × List Char)
  | [] => none
  | '"' :: rest => some ([], rest)
  | '\\' :: 'u' :: a :: b :: c :: d :: rest =>
    if (unit? a b c d).isSome then
      (stringRest? rest).map fun (source, rest) => ('\\' :: 'u' :: a :: b :: c :: d :: source, rest)
    else none
  | '\\' :: e :: rest =>
    if (shortEscape? e).isSome then
      (stringRest? rest).map fun (source, rest) => ('\\' :: e :: source, rest)
    else none
  | c :: rest =>
    if c = '\\' || c.toNat < 0x20 then none
    else (stringRest? rest).map fun (source, rest) => (c :: source, rest)

/-- The digits of a whole part: no zero in front of another digit. -/
def wholeDigits? (cs : List Char) : Option (List Char × List Char) :=
  let (ds, rest) := Decimal.spanDigits cs
  match ds with
  | [] => none
  | '0' :: _ :: _ => none
  | ds => some (ds, rest)

/-- A point with at least one digit, if there is a point. -/
def fractionPart? : List Char → Option (List Char × List Char)
  | '.' :: cs =>
    let (ds, rest) := Decimal.spanDigits cs
    if ds.isEmpty then none else some ('.' :: ds, rest)
  | cs => some ([], cs)

/-- An exponent's sign, as it is written. -/
def signPart : List Char → List Char × List Char
  | '+' :: cs => (['+'], cs)
  | '-' :: cs => (['-'], cs)
  | cs => ([], cs)

/-- An exponent mark with at least one digit, if there is a mark. -/
def exponentPart? : List Char → Option (List Char × List Char)
  | [] => some ([], [])
  | c :: cs =>
    if c = 'e' || c = 'E' then
      let (sign, afterSign) := signPart cs
      let (ds, rest) := Decimal.spanDigits afterSign
      if ds.isEmpty then none else some (c :: sign ++ ds, rest)
    else some ([], c :: cs)

/-- The longest number without a sign at the start of a text. -/
def unsigned? (cs : List Char) : Option (List Char × List Char) :=
  (wholeDigits? cs).bind fun (whole, cs) =>
    (fractionPart? cs).bind fun (fraction, cs) =>
      (exponentPart? cs).map fun (exponent, cs) => (whole ++ fraction ++ exponent, cs)

/-- The longest number at the start of a text. -/
def number? : List Char → Option (List Char × List Char)
  | '-' :: cs => (unsigned? cs).map fun (literal, rest) => ('-' :: literal, rest)
  | cs => unsigned? cs

/-- The token at the start of a text that does not start with white space. -/
def next? : List Char → Option (Token × List Char)
  | '[' :: cs => some (leftBracket, cs)
  | ']' :: cs => some (rightBracket, cs)
  | '\x7b' :: cs => some (leftBrace, cs)
  | '\x7d' :: cs => some (rightBrace, cs)
  | ',' :: cs => some (comma, cs)
  | ':' :: cs => some (colon, cs)
  | 'n' :: 'u' :: 'l' :: 'l' :: cs => some (null, cs)
  | 't' :: 'r' :: 'u' :: 'e' :: cs => some (bool true, cs)
  | 'f' :: 'a' :: 'l' :: 's' :: 'e' :: cs => some (bool false, cs)
  | '"' :: cs => (stringRest? cs).map fun (source, rest) => (string source, rest)
  | cs => (number? cs).map fun (literal, rest) => (number literal, rest)

/-! ## Every token takes something

So the text behind a token is shorter, and reading one token after the other comes to an end. -/

theorem stringRest?_length_lt {cs source rest : List Char}
    (h : stringRest? cs = some (source, rest)) : rest.length < cs.length := by
  fun_induction stringRest? cs generalizing source with
  | case1 => cases h
  | case2 =>
    cases h
    exact Nat.lt_succ_self _
  | case3 a b c d cs _ ih =>
    obtain ⟨_, hrest, heq⟩ := Option.map_eq_some_iff.1 h
    cases heq
    have := ih hrest
    simp only [List.length_cons]
    omega
  | case5 e cs _ _ ih =>
    obtain ⟨_, hrest, heq⟩ := Option.map_eq_some_iff.1 h
    cases heq
    have := ih hrest
    simp only [List.length_cons]
    omega
  | case8 c cs _ _ _ _ ih =>
    obtain ⟨_, hrest, heq⟩ := Option.map_eq_some_iff.1 h
    cases heq
    have := ih hrest
    simp only [List.length_cons]
    omega
  | case4 | case6 | case7 => cases h

theorem spanDigits_length_le (cs : List Char) : (Decimal.spanDigits cs).2.length ≤ cs.length :=
  (List.dropWhile_suffix _).length_le

theorem wholeDigits?_length_lt {cs ds rest : List Char} (h : wholeDigits? cs = some (ds, rest)) :
    rest.length < cs.length := by
  unfold wholeDigits? at h
  cases cs with
  | nil => cases h
  | cons c cs =>
    by_cases hc : c.isDigit = true
    · simp only [Decimal.spanDigits, List.takeWhile_cons, List.dropWhile_cons, hc, if_true] at h
      split at h
      all_goals cases h
      exact Nat.lt_succ_of_le (List.dropWhile_suffix _).length_le
    · simp [Decimal.spanDigits, hc] at h

theorem fractionPart?_length_le {cs ds rest : List Char} (h : fractionPart? cs = some (ds, rest)) :
    rest.length ≤ cs.length := by
  unfold fractionPart? at h
  split at h
  case h_1 cs =>
    have := spanDigits_length_le cs
    simp only at h
    split at h
    all_goals cases h
    simp only [List.length_cons]
    omega
  case h_2 =>
    cases h
    exact Nat.le_refl _

theorem signPart_length_le (cs : List Char) : (signPart cs).2.length ≤ cs.length := by
  unfold signPart
  split <;> simp

theorem exponentPart?_length_le {cs ds rest : List Char} (h : exponentPart? cs = some (ds, rest)) :
    rest.length ≤ cs.length := by
  unfold exponentPart? at h
  split at h
  case h_1 =>
    cases h
    exact Nat.le_refl _
  case h_2 c cs =>
    have hsign := signPart_length_le cs
    have hdigits := spanDigits_length_le (signPart cs).2
    split at h
    · simp only at h
      split at h
      all_goals cases h
      simp only [List.length_cons]
      omega
    · cases h
      exact Nat.le_refl _

theorem unsigned?_length_lt {cs literal rest : List Char}
    (h : unsigned? cs = some (literal, rest)) : rest.length < cs.length := by
  obtain ⟨⟨_, _⟩, hwhole, h⟩ := Option.bind_eq_some_iff.1 h
  obtain ⟨⟨_, _⟩, hfraction, h⟩ := Option.bind_eq_some_iff.1 h
  obtain ⟨⟨_, _⟩, hexponent, heq⟩ := Option.map_eq_some_iff.1 h
  cases heq
  exact Nat.lt_of_le_of_lt
    (Nat.le_trans (exponentPart?_length_le hexponent) (fractionPart?_length_le hfraction))
    (wholeDigits?_length_lt hwhole)

theorem number?_length_lt {cs literal rest : List Char} (h : number? cs = some (literal, rest)) :
    rest.length < cs.length := by
  unfold number? at h
  split at h
  · obtain ⟨⟨_, _⟩, hunsigned, heq⟩ := Option.map_eq_some_iff.1 h
    cases heq
    exact Nat.lt_succ_of_lt (unsigned?_length_lt hunsigned)
  · exact unsigned?_length_lt h

theorem next?_length_lt {cs rest : List Char} {t : Token} (h : next? cs = some (t, rest)) :
    rest.length < cs.length := by
  unfold next? at h
  split at h
  case h_10 =>
    obtain ⟨⟨_, _⟩, hstring, heq⟩ := Option.map_eq_some_iff.1 h
    cases heq
    exact Nat.lt_succ_of_lt (stringRest?_length_lt hstring)
  case h_11 =>
    obtain ⟨⟨_, _⟩, hnumber, heq⟩ := Option.map_eq_some_iff.1 h
    cases heq
    exact number?_length_lt hnumber
  all_goals
    cases h
    simp only [List.length_cons]
    omega

/-- The tokens of a text, white space between them skipped. -/
def lex? (cs : List Char) : Option (List Token) :=
  match cs with
  | [] => some []
  | c :: tail =>
    if isSpace c then lex? tail
    else
      match h : next? (c :: tail) with
      | some (t, rest) =>
        have := next?_length_lt h
        (lex? rest).map (t :: ·)
      | none => none
termination_by cs.length
decreasing_by
  all_goals
    simp only [List.length_cons] at *
    omega

end Token

end LatencyLog.Json
