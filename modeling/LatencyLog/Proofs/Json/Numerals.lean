import LatencyLog.Json.Token
import LatencyLog.Proofs.Decimal.Digits

/-!
# Numbers as JSON writes them

A `Numeral` is a number in the parts that the grammar of JSON gives it, with what the grammar asks of each.
Two readers meet its text. `Token.number?` has to find where it ends, for which it matters what follows
(`number?_text_append`), and `Decimal.literal?` has to find what it means, for which nothing may follow
(`literal?_text`). Both tell the parts apart by their first characters: what is a digit is no point, no mark
and no sign, and no name begins with one.

A natural is a numeral without a fraction and an exponent (`ofNat`).
-/

namespace LatencyLog.Json

open Decimal (AllDigits natOfDigits spanDigits zeros minus)
open Text (Stops)

/-! ## What follows a number -/

/-- A character with which a number could go on. -/
def continuesNumber (c : Char) : Bool := c.isDigit || c = '.' || c = 'e' || c = 'E'

/-- What may follow a number: nothing that would go on with it. -/
abbrev EndsNumber (rest : List Char) : Prop := Stops continuesNumber rest

theorem EndsNumber.imp {p : Char → Bool} (hp : ∀ c, p c = true → continuesNumber c = true)
    {rest : List Char} (h : EndsNumber rest) : Stops p rest := by
  intro c hc
  rw [Bool.eq_false_iff]
  intro htrue
  exact Bool.false_ne_true ((h c hc).symm.trans (hp c htrue))

theorem EndsNumber.isDigit {rest : List Char} (h : EndsNumber rest) : Stops Char.isDigit rest :=
  h.imp fun c hc => by simp [continuesNumber, hc]

/-! ## Numerals -/

/-- A number in JSON by its parts. -/
structure Numeral where
  negative : Bool
  whole : List Char
  /-- The digits behind the point; there is no point without any. -/
  fraction : List Char
  /-- The digits of an exponent, if there is one, and whether it is negative. -/
  exponent : Option (Bool × List Char)
  whole_digits : AllDigits whole
  /-- A zero in front is the only digit in front. -/
  whole_head : whole = ['0'] ∨ ∃ d ds, whole = d :: ds ∧ d ≠ '0'
  fraction_digits : AllDigits fraction
  exponent_digits : ∀ e ∈ exponent, e.2 ≠ [] ∧ AllDigits e.2

namespace Numeral

/-- A point in front of digits, if there are any. -/
def pointed : List Char → List Char
  | [] => []
  | ds => '.' :: ds

def signChar (negative : Bool) : Char := if negative then '-' else '+'

/-- A mark and a sign in front of the digits of an exponent. -/
def marked : Option (Bool × List Char) → List Char
  | none => []
  | some (negative, ds) => 'e' :: signChar negative :: ds

/-- The text without the sign. -/
def body (n : Numeral) : List Char := n.whole ++ (pointed n.fraction ++ marked n.exponent)

def text (n : Numeral) : List Char := minus n.negative ++ n.body

/-- The exponent as it is written. -/
def power (n : Numeral) : Int :=
  match n.exponent with
  | none => 0
  | some (negative, ds) => if negative then -(natOfDigits ds : Int) else natOfDigits ds

/-- The binary64 number that is meant. -/
def value (n : Numeral) : Binary64 :=
  .ofDecimal n.negative (natOfDigits (n.whole ++ n.fraction)) (n.power - n.fraction.length)

variable (n : Numeral)

theorem whole_eq_cons : ∃ d ds, n.whole = d :: ds ∧ d.isDigit = true := by
  rcases n.whole_head with h | ⟨d, ds, h, _⟩
  · exact ⟨'0', [], h, rfl⟩
  · exact ⟨d, ds, h, n.whole_digits d (h ▸ List.mem_cons_self ..)⟩

/-! ## Where a number ends -/

variable {rest : List Char}

theorem wholeDigits?_append (hrest : Stops Char.isDigit rest) :
    Token.wholeDigits? (n.whole ++ rest) = some (n.whole, rest) := by
  rw [Token.wholeDigits?, Decimal.spanDigits_append n.whole_digits hrest]
  rcases n.whole_head with h | ⟨d, ds, h, hd⟩
  · rw [h]
    rfl
  · rw [h]
    dsimp only
    split
    · rename_i heq
      cases heq
    · rename_i heq
      cases heq
      exact absurd rfl hd
    · rfl

theorem fractionPart?_of_stops (hpoint : Stops (· = '.') rest) :
    Token.fractionPart? rest = some ([], rest) := by
  unfold Token.fractionPart?
  split
  · exact absurd (Text.stops_cons.mp hpoint) (by decide)
  · rfl

theorem fractionPart?_append (hdigits : Stops Char.isDigit rest) (hpoint : Stops (· = '.') rest) :
    Token.fractionPart? (pointed n.fraction ++ rest) = some (pointed n.fraction, rest) := by
  have hspan := Decimal.spanDigits_append n.fraction_digits hdigits
  cases h : n.fraction with
  | nil => exact fractionPart?_of_stops hpoint
  | cons d ds =>
    rw [h] at hspan
    show Token.fractionPart? ('.' :: (d :: ds ++ rest)) = _
    rw [Token.fractionPart?, hspan]
    rfl

theorem signPart_signChar (negative : Bool) (cs : List Char) :
    Token.signPart (signChar negative :: cs) = ([signChar negative], cs) := by
  cases negative <;> rfl

theorem exponentPart?_append (hrest : EndsNumber rest) :
    Token.exponentPart? (marked n.exponent ++ rest) = some (marked n.exponent, rest) := by
  cases h : n.exponent with
  | none =>
    cases rest with
    | nil => rfl
    | cons c cs =>
      have hc : ¬ (c = 'e' || c = 'E') = true := by
        have := Text.stops_cons.mp hrest
        simp only [continuesNumber, Bool.or_eq_false_iff] at this
        simp [this.1.2, this.2]
      exact if_neg hc
  | some e =>
    obtain ⟨negative, ds⟩ := e
    obtain ⟨hne, hds⟩ := n.exponent_digits _ (Option.mem_def.mpr h)
    have hspan := Decimal.spanDigits_append hds hrest.isDigit
    show Token.exponentPart? ('e' :: signChar negative :: (ds ++ rest)) = _
    rw [Token.exponentPart?, if_pos (by decide), signPart_signChar]
    dsimp only
    rw [hspan, if_neg (by simpa using hne)]
    rfl

theorem stops_marked_append {p : Char → Bool} (he : p 'e' = false) (hrest : Stops p rest) :
    Stops p (marked n.exponent ++ rest) := by
  cases n.exponent with
  | none => exact hrest
  | some e => exact Text.stops_cons.mpr he

theorem stops_pointed_append {cs : List Char} (hcs : Stops Char.isDigit cs) :
    Stops Char.isDigit (pointed n.fraction ++ cs) := by
  cases n.fraction with
  | nil => exact hcs
  | cons d ds => exact Text.stops_cons.mpr (by decide)

theorem unsigned?_body_append (hrest : EndsNumber rest) :
    Token.unsigned? (n.body ++ rest) = some (n.body, rest) := by
  have hexponent : Stops Char.isDigit (marked n.exponent ++ rest) :=
    n.stops_marked_append (by decide) hrest.isDigit
  have hpoint : Stops (· = '.') (marked n.exponent ++ rest) :=
    n.stops_marked_append (by decide) (hrest.imp (by simp [continuesNumber]))
  have hwhole := n.wholeDigits?_append (n.stops_pointed_append hexponent)
  rw [Token.unsigned?, body, List.append_assoc, List.append_assoc, hwhole, Option.bind_some]
  dsimp only
  rw [n.fractionPart?_append hexponent hpoint, Option.bind_some]
  dsimp only
  rw [n.exponentPart?_append hrest, Option.map_some, List.append_assoc]

/-- The sign is told from the digits by its first character. -/
theorem body_ne_cons {c : Char} (hc : c.isDigit = false) (cs : List Char) : n.body ++ rest ≠ c :: cs := by
  obtain ⟨d, ds, h, hd⟩ := n.whole_eq_cons
  rw [body, h]
  intro heq
  cases heq
  rw [hc] at hd
  cases hd

/-- **A number ends where its text does**, if what follows does not go on with it. -/
theorem number?_text_append (hrest : EndsNumber rest) :
    Token.number? (n.text ++ rest) = some (n.text, rest) := by
  have hbody := n.unsigned?_body_append hrest
  rw [text, List.append_assoc]
  cases n.negative with
  | true =>
    show (Token.unsigned? (n.body ++ rest)).map _ = _
    rw [hbody]
    rfl
  | false =>
    show Token.number? (n.body ++ rest) = some (n.body, rest)
    rw [← hbody]
    unfold Token.number?
    split
    · rename_i heq
      exact absurd heq (n.body_ne_cons (by decide) _)
    · rfl

/-! ## What a number means -/

theorem signedInt?_signChar (negative : Bool) {ds : List Char} (hne : ds ≠ [])
    (hds : AllDigits ds) :
    Decimal.signedInt? (signChar negative :: ds) =
      some (if negative then -(natOfDigits ds : Int) else natOfDigits ds) := by
  have hsplit : Decimal.splitSign (signChar negative :: ds) = (negative, ds) := by
    cases negative <;> rfl
  rw [Decimal.signedInt?, hsplit]
  dsimp only
  rw [hds.all, Bool.not_true, Bool.or_false, if_neg (by simpa using hne)]

theorem exponent?_marked : Decimal.exponent? (marked n.exponent) = some n.power := by
  rw [power]
  cases h : n.exponent with
  | none => rfl
  | some e =>
    obtain ⟨negative, ds⟩ := e
    obtain ⟨hne, hds⟩ := n.exponent_digits _ (Option.mem_def.mpr h)
    exact signedInt?_signChar negative hne hds

theorem fractionDigits_append (hdigits : Stops Char.isDigit rest) (hpoint : Stops (· = '.') rest) :
    Decimal.fractionDigits (pointed n.fraction ++ rest) = (n.fraction, rest) := by
  have hspan := Decimal.spanDigits_append n.fraction_digits hdigits
  cases h : n.fraction with
  | nil =>
    show Decimal.fractionDigits rest = _
    unfold Decimal.fractionDigits
    split
    · exact absurd (Text.stops_cons.mp hpoint) (by decide)
    · rfl
  | cons d ds =>
    rw [h] at hspan
    exact hspan

theorem stops_marked {p : Char → Bool} (he : p 'e' = false) : Stops p (marked n.exponent) := by
  simpa using n.stops_marked_append he Text.stops_nil

theorem unsigned?_body :
    Decimal.unsigned? n.body =
      some (natOfDigits (n.whole ++ n.fraction), n.power - n.fraction.length) := by
  have hmarked : Stops Char.isDigit (marked n.exponent) := n.stops_marked (by decide)
  have hspan := Decimal.spanDigits_append n.whole_digits (n.stops_pointed_append hmarked)
  obtain ⟨d, ds, h, _⟩ := n.whole_eq_cons
  have hne : ¬ (n.whole.isEmpty && n.fraction.isEmpty) = true := by simp [h]
  rw [Decimal.unsigned?, body, hspan]
  dsimp only
  rw [n.fractionDigits_append hmarked (n.stops_marked (by decide))]
  dsimp only
  rw [if_neg hne, n.exponent?_marked, Option.map_some]

theorem toLower_of_isDigit {c : Char} (h : c.isDigit = true) : c.toLower = c := by
  have hupper : ¬ (c.val ≥ 'A'.val ∧ c.val ≤ 'Z'.val) := by
    simp only [Char.isDigit, Bool.and_eq_true, decide_eq_true_eq, UInt32.le_iff_toNat_le, ge_iff_le,
      Char.reduceVal, UInt32.reduceToNat] at h ⊢
    omega
  exact dif_neg hupper

/-- A name does not begin with a digit. -/
theorem map_toLower_body_ne {c : Char} (hc : c.isDigit = false) (cs : List Char) :
    n.body.map Char.toLower ≠ c :: cs := by
  obtain ⟨d, ds, h, hd⟩ := n.whole_eq_cons
  rw [body, h, List.cons_append, List.map_cons, toLower_of_isDigit hd]
  intro heq
  cases heq
  rw [hc] at hd
  cases hd

theorem splitSign_text : Decimal.splitSign n.text = (n.negative, n.body) := by
  rw [text]
  cases n.negative with
  | true => rfl
  | false =>
    show Decimal.splitSign n.body = _
    obtain ⟨d, ds, h, hd⟩ := n.whole_eq_cons
    unfold Decimal.splitSign
    split
    · rename_i heq
      exact absurd (List.append_nil n.body ▸ heq) (n.body_ne_cons (by decide) _)
    · rename_i heq
      exact absurd (List.append_nil n.body ▸ heq) (n.body_ne_cons (by decide) _)
    · rfl

/-- **A number is read as its value.** -/
theorem literal?_text : Decimal.literal? n.text = some n.value := by
  have hnamed : ¬ (decide (n.body.map Char.toLower = "inf".toList) ||
      decide (n.body.map Char.toLower = "infinity".toList)) = true := by
    simp only [Bool.or_eq_true, decide_eq_true_eq, not_or]
    exact ⟨n.map_toLower_body_ne (by decide) _, n.map_toLower_body_ne (by decide) _⟩
  have hnan : ¬ n.body.map Char.toLower = "nan".toList := n.map_toLower_body_ne (by decide) _
  rw [Decimal.literal?, n.splitSign_text]
  dsimp only
  rw [if_neg hnamed, if_neg hnan, n.unsigned?_body, Option.map_some]
  rfl

/-! ## Naturals -/

theorem no_exponent : ∀ e ∈ (none : Option (Bool × List Char)), e.2 ≠ [] ∧ AllDigits e.2 :=
  fun _ h => nomatch h

/-- A natural is its digits. -/
def ofNat (k : Nat) : Numeral where
  negative := false
  whole := Nat.toDigits 10 k
  fraction := []
  exponent := none
  whole_digits := Decimal.allDigits_toDigits k
  whole_head := by
    rcases Decidable.em (k = 0) with rfl | hk
    · exact Or.inl rfl
    · exact Or.inr (Decimal.exists_toDigits_eq_cons hk)
  fraction_digits := fun _ h => nomatch h
  exponent_digits := no_exponent

theorem text_ofNat (k : Nat) : (ofNat k).text = Nat.toDigits 10 k := List.append_nil _

end Numeral

end LatencyLog.Json
