/-!
# Cutting a text at bytes

Where a text is cut may be given by offsets into its UTF-8 bytes. An offset that lies within a
character, or behind the text, cuts nothing (`slice?`); the offsets of a part of a text cut out that
part (`slice?_append`).
-/

namespace LatencyLog.Text

/-- The number of bytes of a text. -/
def byteSize : List Char → Nat
  | [] => 0
  | c :: cs => c.utf8Size + byteSize cs

@[simp]
theorem byteSize_nil : byteSize [] = 0 := rfl

@[simp]
theorem byteSize_cons (c : Char) (cs : List Char) : byteSize (c :: cs) = c.utf8Size + byteSize cs :=
  rfl

/-- A text cut in two behind so many bytes. -/
def splitBytes? : Nat → List Char → Option (List Char × List Char)
  | 0, cs => some ([], cs)
  | _ + 1, [] => none
  | n + 1, c :: cs =>
    if c.utf8Size ≤ n + 1 then
      (splitBytes? (n + 1 - c.utf8Size) cs).map fun (front, back) => (c :: front, back)
    else none

theorem splitBytes?_append (front back : List Char) :
    splitBytes? (byteSize front) (front ++ back) = some (front, back) := by
  induction front with
  | nil => simp [splitBytes?]
  | cons c cs ih =>
    obtain ⟨n, hn⟩ : ∃ n, byteSize (c :: cs) = n + 1 :=
      ⟨byteSize (c :: cs) - 1, by have := c.utf8Size_pos; simp; omega⟩
    have hc : c.utf8Size ≤ n + 1 := by rw [← hn, byteSize_cons]; omega
    have hrest : n + 1 - c.utf8Size = byteSize cs := by rw [← hn, byteSize_cons]; omega
    rw [hn, List.cons_append, splitBytes?, if_pos hc, hrest, ih]
    rfl

/-- What stands between two offsets, the first of which is not behind the second. -/
def slice? (start stop : Nat) (cs : List Char) : Option (List Char) := do
  let (_, back) ← splitBytes? start cs
  let (middle, _) ← splitBytes? (stop - start) back
  return middle

theorem slice?_append (front middle back : List Char) :
    slice? (byteSize front) (byteSize front + byteSize middle) (front ++ (middle ++ back)) =
      some middle := by
  simp [slice?, splitBytes?_append]

end LatencyLog.Text
