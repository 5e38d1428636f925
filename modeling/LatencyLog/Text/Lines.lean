/-!
# Lines

A line reaches to its line feed and includes it; what follows the last line feed is a line too,
unless there is nothing. Nothing is lost by cutting (`flatten_cutAfter`), and no line is empty.
-/

namespace LatencyLog.Text

/-- The pieces of a list, cut after each element that ends one. -/
def cutAfter {α : Type} (ends : α → Bool) (xs : List α) : List (List α) :=
  xs.foldr
    (fun x pieces =>
      if ends x then [x] :: pieces
      else
        match pieces with
        | [] => [[x]]
        | piece :: rest => (x :: piece) :: rest)
    []

/-- The lines of bytes. -/
def byteLines : List UInt8 → List (List UInt8) := cutAfter (· == 0x0A)

/-- The lines of bytes that have their line feed: all, or all but the last. -/
def endedLines (bytes : List UInt8) : List (List UInt8) :=
  (byteLines bytes).filter fun line => decide (line.getLast? = some 0x0A)

/-- The lines of a text. -/
def lines : List Char → List (List Char) := cutAfter (· == '\n')

theorem cutAfter_cons {α : Type} (ends : α → Bool) (x : α) (xs : List α) :
    cutAfter ends (x :: xs) =
      if ends x then [x] :: cutAfter ends xs
      else
        match cutAfter ends xs with
        | [] => [[x]]
        | piece :: rest => (x :: piece) :: rest := rfl

theorem flatten_cutAfter {α : Type} (ends : α → Bool) (xs : List α) :
    (cutAfter ends xs).flatten = xs := by
  induction xs with
  | nil => rfl
  | cons x xs ih =>
    rw [cutAfter_cons]
    split
    · simp [ih]
    · split
      · rename_i h
        rw [h] at ih
        simpa using ih
      · rename_i h
        rw [h] at ih
        simpa using ih

theorem ne_nil_of_mem_cutAfter {α : Type} {ends : α → Bool} {xs piece : List α}
    (h : piece ∈ cutAfter ends xs) : piece ≠ [] := by
  induction xs generalizing piece with
  | nil => simp [cutAfter] at h
  | cons x xs ih =>
    rw [cutAfter_cons] at h
    split at h
    · rcases List.mem_cons.1 h with rfl | h
      · simp
      · exact ih h
    · split at h
      · rw [List.mem_singleton.1 h]
        simp
      · rename_i hcut
        rcases List.mem_cons.1 h with rfl | h
        · simp
        · exact ih (hcut ▸ List.mem_cons_of_mem _ h)

end LatencyLog.Text
