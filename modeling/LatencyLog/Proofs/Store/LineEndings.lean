import LatencyLog.Proofs.Store.Sources
import LatencyLog.Proofs.Text.Trimming

/-!
# White space around lines

A line is trimmed before anything is read from it, so white space around it does not matter, of whatever
kind it is (`Entry.ofLine_of_trim_eq`). A carriage return is white space. In front of a line feed it is at
the end of a line, and the line is what it was without it; so it does not matter how lines are ended, and
those of one source need not all be ended in one way (`map_seen_withReturns`).

Where a line is no UTF-8 this takes a thought, as it is decoded before it is trimmed. A carriage return
could be lost in what is broken in front of it. It is not: it is a character of one byte, and these stand
for themselves wherever they are (`decodeLossy_return`).
-/

namespace LatencyLog

open Text (isBlank trim byteLines endedLines)
open Text.Utf8 (decodeLossy)

/-! ## Lines of text -/

theorem Fields.read_of_trim_eq {line line' : List Char} (h : trim line = trim line') :
    read line = read line' := by
  rw [read, read, h]

theorem Entry.ofLine_of_trim_eq {line line' : List Char} (h : trim line = trim line') (f : Frequency) :
    ofLine f line = ofLine f line' := by
  rw [ofLine, ofLine, Fields.read_of_trim_eq h]

theorem Store.addLine_trim (s : Store) (line : List Char) : s.addLine (trim line) = s.addLine line := by
  rw [addLine, addLine, Entry.ofLine_of_trim_eq (Text.trim_trim line)]

/-! ## Carriage returns -/

def carriageReturn : UInt8 := 0x0D

/-- Bytes with a carriage return in front of some line feeds: of those whose number, counted from 0, is
chosen. -/
def withReturns (chosen : Nat → Bool) : List UInt8 → List UInt8
  | [] => []
  | b :: bs =>
    if b = lineFeed then
      (if chosen 0 then [carriageReturn] else []) ++ b :: withReturns (fun i => chosen (i + 1)) bs
    else b :: withReturns chosen bs

theorem withReturns_lineFeed (chosen : Nat → Bool) (after : List UInt8) :
    withReturns chosen (lineFeed :: after) =
      (if chosen 0 then [carriageReturn] else []) ++
        lineFeed :: withReturns (fun i => chosen (i + 1)) after := if_pos rfl

/-- Before the first line feed nothing is put in. -/
theorem withReturns_append {before : List UInt8} (h : lineFeed ∉ before) (chosen : Nat → Bool)
    (after : List UInt8) : withReturns chosen (before ++ after) = before ++ withReturns chosen after := by
  induction before with
  | nil => rfl
  | cons b before ih =>
    rw [List.mem_cons, not_or] at h
    rw [List.cons_append, withReturns, if_neg (Ne.symm h.1), ih h.2, List.cons_append]

example : withReturns (· == 1) [lineFeed, 0x61, lineFeed, lineFeed] =
    [lineFeed, 0x61, carriageReturn, lineFeed, lineFeed] := by decide

/-! ## Lines of bytes -/

/-- What a store can see of a line: its text, but for the white space around it, and whether it is ended. -/
def seen (line : List UInt8) : List Char × Bool :=
  (trim (decodeLossy line), decide (line.getLast? = some lineFeed))

/-- A carriage return does not join what is broken off in front of it. -/
theorem decodeLossy_return (before : List UInt8) :
    decodeLossy (before ++ [carriageReturn]) = decodeLossy before ++ ['\r'] :=
  Text.Utf8.decodeLossy_append_single (by decide) before []

/-- The line feed of a line is not seen in its text. -/
theorem seen_ended (before : List UInt8) :
    seen (before ++ [lineFeed]) = (trim (decodeLossy before), true) := by
  have htext : decodeLossy (before ++ [lineFeed]) = decodeLossy before ++ ['\n'] :=
    Text.Utf8.decodeLossy_append_lineFeed before []
  rw [seen, htext, Text.trim_concat rfl, List.getLast?_concat, decide_eq_true rfl]

/-- **Nor is a carriage return in front of it.** -/
theorem seen_return (before : List UInt8) :
    seen (before ++ [carriageReturn] ++ [lineFeed]) = seen (before ++ [lineFeed]) := by
  rw [seen_ended, seen_ended, decodeLossy_return, Text.trim_concat rfl]

/-- **Line by line, the same is seen.** -/
theorem map_seen_withReturns (chosen : Nat → Bool) (bytes : List UInt8) :
    (byteLines (withReturns chosen bytes)).map seen = (byteLines bytes).map seen := by
  induction bytes using Text.Utf8.lines_induction generalizing chosen with
  | unended bytes h =>
    have hsame := withReturns_append h chosen []
    rw [List.append_nil, withReturns, List.append_nil] at hsame
    rw [hsame]
  | ended before after h ih =>
    -- With a carriage return or without, the first line feed ends the first line.
    have hrest := ih fun i => chosen (i + 1)
    have hfeed : withReturns chosen (0x0A :: after) =
        (if chosen 0 then [carriageReturn] else []) ++
          0x0A :: withReturns (fun i => chosen (i + 1)) after := withReturns_lineFeed chosen after
    rw [withReturns_append h, hfeed, Text.Utf8.byteLines_append_lineFeed h, List.map_cons]
    split
    · have hreturn : lineFeed ∉ before ++ [carriageReturn] := by
        rw [List.mem_append, not_or]
        exact ⟨h, by decide⟩
      rw [← List.append_assoc, Text.Utf8.byteLines_append_lineFeed hreturn, List.map_cons, hrest]
      exact congrArg (· :: _) (seen_return before)
    · rw [List.nil_append, Text.Utf8.byteLines_append_lineFeed h, List.map_cons, hrest]

namespace Store

/-- What is trimmed adds the same as what is not. -/
theorem addByteLines_eq_foldl_trim (s : Store) (lines : List (List UInt8)) :
    s.addByteLines lines = ((lines.map seen).map Prod.fst).foldl (fun s text => (s.addLine text).1) s := by
  rw [List.map_map, List.foldl_map, addByteLines]
  simp only [Function.comp_apply, seen, addLine_trim]

theorem map_seen_endedLines (bytes : List UInt8) :
    (endedLines bytes).map seen = ((byteLines bytes).map seen).filter Prod.snd := by
  rw [List.filter_map]
  rfl

section Seen

variable {bytes bytes' : List UInt8} (h : (byteLines bytes).map seen = (byteLines bytes').map seen)
include h

theorem addBytes_of_seen (s : Store) : s.addBytes bytes = s.addBytes bytes' := by
  rw [addBytes, addBytes, addByteLines_eq_foldl_trim, h, ← addByteLines_eq_foldl_trim]

/-- **Sources of which the same is seen fill a store alike**, also where they break off. -/
theorem addSource_of_seen (s : Store) (broken : Bool) :
    s.addSource ⟨bytes, broken⟩ = s.addSource ⟨bytes', broken⟩ := by
  have hended : s.addByteLines (endedLines bytes) = s.addByteLines (endedLines bytes') := by
    rw [addByteLines_eq_foldl_trim, map_seen_endedLines, h, ← map_seen_endedLines,
      ← addByteLines_eq_foldl_trim]
  rw [addSource, addSource, hended, addBytes_of_seen h]

end Seen

/-- **White space around lines does not matter, nor how they are ended.** A line with white space on both
sides is read as it is without, to an entry or to the same discard. Whatever bytes a source has, UTF-8 or
not, and whichever of its line feeds a carriage return is put in front of, a store and the tally are the
same; and the store is where the source breaks off. -/
theorem lines_without_surroundings (f : Frequency) :
    (∀ front line back : List Char, (∀ c ∈ front, isBlank c = true) → (∀ c ∈ back, isBlank c = true) →
      Fields.read (front ++ line ++ back) = Fields.read line ∧
      Entry.ofLine f (front ++ line ++ back) = Entry.ofLine f line) ∧
    ∀ (chosen : Nat → Bool) (bytes : List UInt8) (s : Store),
      s.addBytes (withReturns chosen bytes) = s.addBytes bytes ∧
      ∀ broken, s.addSource ⟨withReturns chosen bytes, broken⟩ = s.addSource ⟨bytes, broken⟩ := by
  constructor
  · intro front line back hfront hback
    have htrim := Text.trim_append_append hfront hback line
    exact ⟨Fields.read_of_trim_eq htrim, Entry.ofLine_of_trim_eq htrim f⟩
  · intro chosen bytes s
    have hseen := map_seen_withReturns chosen bytes
    exact ⟨addBytes_of_seen hseen s, addSource_of_seen hseen s⟩

def reading : List Char := "10:00:00 TTT in 1".toList

/-- White space of two kinds, the first of them of three bytes. -/
def wideSpace : List Char := ['\u3000', '\t']

/-- The first two bytes of three, and a reading. -/
def tornBeforeReading : List UInt8 := [0xE2, 0x82, lineFeed] ++ Text.Utf8.encode reading ++ [lineFeed]

theorem lines_without_surroundings_torn :
    (∀ c ∈ wideSpace, isBlank c = true) ∧
      Fields.read (wideSpace ++ reading ++ wideSpace) = Fields.read reading ∧
      Entry.ofLine .default (wideSpace ++ reading ++ wideSpace) = Entry.ofLine .default reading ∧
      withReturns (· == 0) tornBeforeReading =
        [0xE2, 0x82, carriageReturn, lineFeed] ++ Text.Utf8.encode reading ++ [lineFeed] ∧
      (empty .default).addBytes (withReturns (· == 0) tornBeforeReading) =
        (empty .default).addBytes tornBeforeReading ∧
      ((empty .default).addBytes tornBeforeReading).2.lines = 2 ∧
      ((empty .default).addBytes tornBeforeReading).2.ttt = 1 := by
  have hblank : ∀ c ∈ wideSpace, isBlank c = true := List.all_eq_true.mp rfl
  obtain ⟨hlines, hsources⟩ := lines_without_surroundings .default
  obtain ⟨hread, hentry⟩ := hlines wideSpace reading wideSpace hblank hblank
  exact ⟨hblank, hread, hentry, by decide +kernel,
    (hsources (· == 0) tornBeforeReading (empty .default)).1, by decide +kernel, by decide +kernel⟩

end Store

end LatencyLog
