import LatencyLog.Report.Text
import LatencyLog.Proofs.Binary64.Heights
import LatencyLog.Proofs.Decimal.TwoPlaces

/-!
# What a latency text says

A latency text is a number, a space and a unit, and it denotes the number times the unit
(`ShownLatency.nanos`). The reader of such texts knows nothing of how they are written. It finds the number of
nanoseconds itself below 1000, and hundredths of a unit from there on (`read?_latencyText`).

Between a count of nanoseconds and its hundredths of a unit lie three roundings: of the count to a binary64
number, of the quotient, and to two places. None of them takes what is greater to what is less
(`hundredthsIn_mono`), and none of them touches a whole number of units (`hundredthsIn_mul`).
-/

namespace LatencyLog

open Binary64 (unity roundToGrid)

/-- A latency as a text shows it: so much of a unit. -/
structure ShownLatency where
  number : Decimal
  /-- The nanoseconds in the unit. -/
  unit : Nat
deriving DecidableEq

namespace ShownLatency

/-- The latency that is denoted, in nanoseconds. -/
def nanos (s : ShownLatency) : ℚ := s.number.value * s.unit

/-- The nanoseconds in the unit with a name. -/
def unit? (name : List Char) : Option Nat :=
  if name = "ns".toList then some 1
  else if name = "μs".toList then some 1000
  else if name = "ms".toList then some 1000000
  else if name = "s".toList then some 1000000000
  else none

/-- Reads a number, one space and the name of a unit. -/
def read? (text : String) : Option ShownLatency :=
  match text.toList.splitOn ' ' with
  | [number, name] =>
    match Decimal.unsigned? number, unit? name with
    | some (digits, exponent), some unit => some ⟨⟨digits, exponent⟩, unit⟩
    | _, _ => none
  | _ => none

theorem read?_of_parts {text : String} {number name : List Char} {digits unit : Nat} {exponent : Int}
    (htext : text.toList = number ++ ' ' :: name)
    (hnumber : Decimal.unsigned? number = some (digits, exponent)) (hname : ' ' ∉ name)
    (hunit : unit? name = some unit) : read? text = some ⟨⟨digits, exponent⟩, unit⟩ := by
  have hspaceless : ∀ cs ∈ [number, name], ' ' ∉ cs := by
    simpa using ⟨Decimal.space_not_mem_unsigned hnumber, hname⟩
  have hsplit := List.splitOn_intercalate ' ' hspaceless (List.cons_ne_nil _ _)
  have hjoin : [' '].intercalate [number, name] = number ++ ' ' :: name := by simp
  rw [hjoin, ← htext] at hsplit
  rw [read?, hsplit]
  dsimp only
  rw [hnumber, hunit]

/-! ## Hundredths of a unit -/

/-- Nanoseconds in hundredths of a unit, as they are computed. -/
def hundredthsIn (nanos unit : Nat) : Nat :=
  Decimal.hundredths (roundToGrid (roundToGrid (nanos * unity) 1) unit)

theorem hundredthsIn_mono {unit m n : Nat} (hunit : 0 < unit) (h : m ≤ n) :
    hundredthsIn m unit ≤ hundredthsIn n unit := by
  have hcount := Binary64.roundToGrid_mono Nat.one_pos (Nat.mul_le_mul_right unity h)
  exact Decimal.hundredths_mono (Binary64.roundToGrid_mono hunit hcount)

/-- **A whole number of units is shown as it is.** -/
theorem hundredthsIn_mul {unit k : Nat} (hunit : 0 < unit) (h : k * unit ≤ 2 ^ 53) :
    hundredthsIn (k * unit) unit = k * 100 := by
  have hk : k ≤ 2 ^ 53 := Nat.le_trans (Nat.le_mul_of_pos_right k hunit) h
  have hquotient : roundToGrid (k * unit * unity) unit = k * unity := by
    have hexact : k * unit * unity = k * unity * unit := Nat.mul_right_comm _ _ _
    exact Nat.le_antisymm
      (Binary64.roundToGrid_le_of_le_mul hunit (Binary64.onGrid_mul_unity hk) (Nat.le_of_eq hexact))
      (Binary64.le_roundToGrid hunit (Binary64.onGrid_mul_unity hk) (Nat.le_of_eq hexact.symm))
  rw [hundredthsIn, Binary64.roundToGrid_of_onGrid (Binary64.onGrid_mul_unity h), hquotient,
    Decimal.hundredths_mul_unity]

/-- **A word divided by a unit is finite, and shown in hundredths.** -/
theorem inUnit_eq {nanos unit : Nat} (hnanos : nanos < 2 ^ 64) (hunit : 0 < unit) (hle : unit ≤ 2 ^ 53) :
    LatencyLog.inUnit nanos unit = String.ofList (Decimal.twoPlaces (hundredthsIn nanos unit)) := by
  -- A word may be rounded up, but no further than to the power of two behind all words.
  have hcount : roundToGrid (nanos * unity) 1 ≤ 2 ^ 64 * unity := by
    have hgrid : Binary64.OnGrid (2 ^ 64 * unity) := by decide +kernel
    refine Binary64.roundToGrid_le_of_le_mul Nat.one_pos hgrid ?_
    rw [Nat.mul_one]
    exact Nat.mul_le_mul_right unity (Nat.le_of_lt hnanos)
  have hceiling : 2 ^ 64 * unity < Binary64.ceiling := by decide +kernel
  obtain ⟨a, ha, haunits⟩ : ∃ a : Binary64.Magnitude, Binary64.ofNat nanos = .finite false a ∧
      a.units = roundToGrid (nanos * unity) 1 :=
    Binary64.exists_ofQuotient_eq_finite (Nat.lt_of_le_of_lt hcount hceiling) false
  obtain ⟨b, hb, hbunits⟩ := Binary64.ofNat_exact hle
  have hpos : b.units ≠ 0 := by
    rw [hbunits]
    exact Nat.ne_of_gt (Nat.mul_pos hunit Binary64.unity_pos)
  have hquotient : roundToGrid a.units unit < Binary64.ceiling := by
    refine Nat.lt_of_le_of_lt ?_ a.lt_ceiling
    exact Binary64.roundToGrid_le_of_le_mul hunit a.onGrid (Nat.le_mul_of_pos_right _ hunit)
  obtain ⟨q, hq, hqunits⟩ := Binary64.exists_ofQuotient_eq_finite hquotient false
  rw [LatencyLog.inUnit, ha, hb, Binary64.finite_div_finite _ _ _ _ hpos, hbunits,
    Nat.mul_comm a.units, Nat.mul_comm unit, Binary64.ofQuotient_mul_left Binary64.unity_pos,
    bne_self_eq_false, hq, Decimal.fixed_finite, hqunits, haunits]
  rfl

/-! ## Texts -/

/-- So many nanoseconds in hundredths of a unit. -/
def inHundredths (nanos unit : Nat) : ShownLatency := ⟨⟨hundredthsIn nanos unit, -2⟩, unit⟩

/-- The unit for so many nanoseconds, from 1000 on. -/
def unitFor (nanos : Nat) : Nat :=
  if nanos < 1000000 then 1000 else if nanos < 1000000000 then 1000000 else 1000000000

/-- What is shown of so many nanoseconds. -/
def ofNanos (nanos : Nat) : ShownLatency :=
  if nanos < 1000 then ⟨⟨nanos, 0⟩, 1⟩ else inHundredths nanos (unitFor nanos)

theorem read?_inHundredths {nanos unit : Nat} {name : List Char} (hnanos : nanos < 2 ^ 64) (hunit : 0 < unit)
    (hle : unit ≤ 2 ^ 53) (hname : ' ' ∉ name) (hread : unit? name = some unit) {tail : String}
    (htail : tail.toList = ' ' :: name) :
    read? (LatencyLog.inUnit nanos unit ++ tail) = some (inHundredths nanos unit) := by
  refine read?_of_parts ?_ (Decimal.unsigned?_twoPlaces _) hname hread
  rw [String.toList_append, inUnit_eq hnanos hunit hle, String.toList_ofList, htail]

/-- **A latency text is read, and this is what it says.** -/
theorem read?_latencyText {nanos : Nat} (h : nanos < 2 ^ 64) :
    read? (latencyText nanos) = some (ofNanos nanos) := by
  unfold latencyText ofNanos unitFor
  split
  · have htext : (toString nanos ++ " ns").toList = Nat.toDigits 10 nanos ++ ' ' :: "ns".toList := by
      rw [String.toList_append, Nat.toString_eq_ofList_toDigits, String.toList_ofList]
      rfl
    exact read?_of_parts htext (Decimal.unsigned?_toDigits nanos) (by decide) (by decide)
  split
  · exact read?_inHundredths h (by decide) (by decide) (by decide) (by decide) rfl
  split
  · exact read?_inHundredths h (by decide) (by decide) (by decide) (by decide) rfl
  · exact read?_inHundredths h (by decide) (by decide) (by decide) (by decide) rfl

end ShownLatency

end LatencyLog
