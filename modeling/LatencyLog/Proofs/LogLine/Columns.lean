import LatencyLog.LogLine

/-!
# The four columns of a line

A line is split at every space, so what stands between two neighbouring spaces is a column of its own,
empty or not. `Columns` are four texts without a space, and `Columns.text` puts them together again. Of a
text there is at most one way to read it as four columns (`text_injective`), and there is one if it has
three spaces (`exists_text_iff`). What `Fields.read` makes of a line is said with the columns it was made
from.
-/

namespace LatencyLog

/-! ## Splitting -/

theorem length_splitOn {α : Type} [BEq α] (a : α) (xs : List α) :
    (xs.splitOn a).length = xs.count a + 1 := by
  induction xs with
  | nil => rfl
  | cons x xs ih =>
    rw [List.splitOn_cons_eq_if_modifyHead, List.count_cons]
    split
    · rw [List.length_cons, ih]
    · rw [List.length_modifyHead, ih, Nat.add_zero]

theorem not_mem_of_mem_splitOn {α : Type} [BEq α] [LawfulBEq α] {a : α} {xs piece : List α}
    (h : piece ∈ xs.splitOn a) : a ∉ piece := by
  induction xs generalizing piece with
  | nil =>
    rw [List.splitOn_nil, List.mem_singleton] at h
    rw [h]
    exact List.not_mem_nil
  | cons x xs ih =>
    rw [List.splitOn_cons_eq_if_modifyHead] at h
    split at h
    · rcases List.mem_cons.mp h with rfl | h
      · exact List.not_mem_nil
      · exact ih h
    · rename_i hx
      obtain ⟨first, rest, hsplit⟩ := List.exists_cons_of_ne_nil (List.splitOn_ne_nil a xs)
      rw [hsplit, List.modifyHead_cons] at h
      rw [hsplit] at ih
      rcases List.mem_cons.mp h with rfl | h
      · rw [List.mem_cons, not_or]
        refine ⟨?_, ih (List.mem_cons_self ..)⟩
        rintro rfl
        exact hx (beq_self_eq_true a)
      · exact ih (List.mem_cons_of_mem first h)

/-! ## Columns -/

/-- Four texts without a space. -/
structure Columns where
  timestamp : List Char
  kind : List Char
  tag : List Char
  value : List Char
  spaceless : ∀ cs ∈ [timestamp, kind, tag, value], ' ' ∉ cs

namespace Columns

def pieces (c : Columns) : List (List Char) := [c.timestamp, c.kind, c.tag, c.value]

/-- The columns with a space between neighbours. -/
def text (c : Columns) : List Char :=
  c.timestamp ++ ' ' :: (c.kind ++ ' ' :: (c.tag ++ ' ' :: c.value))

theorem text_eq_intercalate (c : Columns) : c.text = [' '].intercalate c.pieces := by
  simp [text, pieces]

theorem splitSpaces_text (c : Columns) : Fields.splitSpaces c.text = c.pieces := by
  rw [text_eq_intercalate]
  exact List.splitOn_intercalate ' ' c.spaceless (List.cons_ne_nil _ _)

theorem count_text (c : Columns) : c.text.count ' ' = 3 := by
  have hlength := length_splitOn ' ' c.text
  have hpieces : (c.text.splitOn ' ').length = 4 := congrArg List.length (splitSpaces_text c)
  omega

/-- **A text is read as columns in one way at most.** -/
theorem text_injective {c d : Columns} (h : c.text = d.text) : c = d := by
  have hpieces : c.pieces = d.pieces := by
    rw [← splitSpaces_text, ← splitSpaces_text, h]
  obtain ⟨timestamp, kind, tag, value, _⟩ := c
  obtain ⟨timestamp', kind', tag', value', _⟩ := d
  obtain ⟨rfl, rfl, rfl, rfl, _⟩ : timestamp = timestamp' ∧ kind = kind' ∧ tag = tag' ∧
      value = value' ∧ True := by simpa [pieces] using hpieces
  rfl

/-- **Three spaces make four columns.** -/
theorem exists_text_iff {cs : List Char} : (∃ c : Columns, c.text = cs) ↔ cs.count ' ' = 3 := by
  constructor
  · rintro ⟨c, rfl⟩
    exact c.count_text
  · intro hcount
    have hlength : (cs.splitOn ' ').length = 4 := by rw [length_splitOn, hcount]
    have hspaceless := fun piece (h : piece ∈ cs.splitOn ' ') => not_mem_of_mem_splitOn h
    have hjoin : [' '].intercalate (cs.splitOn ' ') = cs := List.intercalate_splitOn ' '
    match hsplit : cs.splitOn ' ', hlength with
    | [timestamp, kind, tag, value], _ =>
      rw [hsplit] at hspaceless hjoin
      refine ⟨⟨timestamp, kind, tag, value, hspaceless⟩, ?_⟩
      rw [text_eq_intercalate]
      exact hjoin

/-- The fields that columns make, the last one being read as a number. -/
def fields (c : Columns) (x : Binary64) : Fields :=
  ⟨String.ofList c.timestamp, String.ofList c.kind, String.ofList c.tag, x⟩

end Columns

/-! ## Reading -/

namespace Fields

theorem read_of_columns {line : List Char} {c : Columns} (h : c.text = Text.trim line) :
    read line =
      match Decimal.literal? c.value with
      | some x => .ok (c.fields x)
      | none => .error .invalidValue := by
  rw [read, ← h, Columns.splitSpaces_text]
  rfl

theorem read_of_literal {line : List Char} {c : Columns} {x : Binary64} (h : c.text = Text.trim line)
    (hvalue : Decimal.literal? c.value = some x) : read line = .ok (c.fields x) := by
  rw [read_of_columns h, hvalue]

theorem read_of_not_literal {line : List Char} {c : Columns} (h : c.text = Text.trim line)
    (hvalue : Decimal.literal? c.value = none) : read line = .error .invalidValue := by
  rw [read_of_columns h, hvalue]

/-- Another number of spaces, another number of columns. -/
theorem read_of_count_ne {line : List Char} (h : (Text.trim line).count ' ' ≠ 3) :
    read line = .error .fieldCount := by
  have hlength : (splitSpaces (Text.trim line)).length ≠ 4 := by
    rw [splitSpaces, length_splitOn]
    omega
  unfold read
  split
  · rename_i hsplit
    rw [hsplit] at hlength
    exact absurd rfl hlength
  · rfl

end Fields

end LatencyLog
