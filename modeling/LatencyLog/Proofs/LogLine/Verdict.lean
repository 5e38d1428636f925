import LatencyLog.Proofs.Decimal.Characters
import LatencyLog.Proofs.Decimal.WholeLiterals
import LatencyLog.Proofs.LogLine.Columns
import LatencyLog.Proofs.Text.Trimming
import Mathlib.Logic.ExistsUnique

/-!
# What a line is taken for

Of a line several things can be wrong at once, and they are found in two places: the number of columns and
the number while it is split, the kind and the time afterwards. `Verdict` states the rules without either,
one rule for each answer. A rule says that what is asked before it was all right, so of several causes the
first one is given.

Every line has one verdict, and that is what is made of it (`ofLine_eq_iff`). In the other direction, what
is put together from four columns is taken apart into the same four, as long as trimming cannot get at
them: nothing of a literal is lost at the end, and at the front it is asked for (`read_text`).

Counters are whole numbers, so what a log holds in its last column is mostly an integer. `LogsInteger` is such
a line, said by its four columns. It is accepted, with the time, the kind and the tag that its columns say;
and up to 2^53 the value it is given is the integer exactly, before it is converted
(`LogsInteger.exists_ofLine`).
-/

namespace LatencyLog

/-- The rules for a line without the white space around it. -/
inductive Verdict (f : Frequency) (s : List Char) : Except Discard Entry → Prop where
  | fieldCount (count : s.count ' ' ≠ 3) : Verdict f s (.error .fieldCount)
  | invalidValue (c : Columns) (text : c.text = s) (value : Decimal.literal? c.value = none) :
    Verdict f s (.error .invalidValue)
  | unknownKind (c : Columns) (x : Binary64) (text : c.text = s)
    (value : Decimal.literal? c.value = some x) (noDuration : c.kind ≠ "RDTSC".toList)
    (noReading : c.kind ≠ "TTT".toList) : Verdict f s (.error .unknownKind)
  | invalidTimestamp (c : Columns) (x : Binary64) (text : c.text = s)
    (value : Decimal.literal? c.value = some x)
    (kind : c.kind = "RDTSC".toList ∨ c.kind = "TTT".toList)
    (time : TimeOfDay.read? c.timestamp = none) : Verdict f s (.error .invalidTimestamp)
  /-- A duration is divided by the frequency. -/
  | duration (c : Columns) (x : Binary64) (t : TimeOfDay) (text : c.text = s)
    (value : Decimal.literal? c.value = some x) (kind : c.kind = "RDTSC".toList)
    (time : TimeOfDay.read? c.timestamp = some t) :
    Verdict f s (.ok ⟨t, .rdtsc, String.ofList c.tag, x / f.ghz⟩)
  /-- A reading is taken as it stands. -/
  | reading (c : Columns) (x : Binary64) (t : TimeOfDay) (text : c.text = s)
    (value : Decimal.literal? c.value = some x) (kind : c.kind = "TTT".toList)
    (time : TimeOfDay.read? c.timestamp = some t) :
    Verdict f s (.ok ⟨t, .ttt, String.ofList c.tag, x⟩)

/-! ## Kinds -/

theorem ofLabel?_ofList_eq_some_iff {cs : List Char} {kind : EventKind} :
    EventKind.ofLabel? (String.ofList cs) = some kind ↔ cs = kind.label.toList := by
  rw [EventKind.ofLabel?_eq_some_iff]
  constructor
  · intro h
    rw [← h, String.toList_ofList]
  · rintro rfl
    exact String.ofList_toList

theorem ofLabel?_ofList_eq_none {cs : List Char} (hrdtsc : cs ≠ "RDTSC".toList)
    (httt : cs ≠ "TTT".toList) : EventKind.ofLabel? (String.ofList cs) = none := by
  cases h : EventKind.ofLabel? (String.ofList cs) with
  | none => rfl
  | some kind =>
    have hlabel := ofLabel?_ofList_eq_some_iff.mp h
    cases kind with
    | rdtsc => exact absurd hlabel hrdtsc
    | ttt => exact absurd hlabel httt

/-! ## Classifying columns -/

namespace Columns

variable {f : Frequency} {c : Columns}

theorem classify_of_unknown (h : EventKind.ofLabel? (String.ofList c.kind) = none) (x : Binary64) :
    Fields.classify f (c.fields x) = .error .unknownKind := by
  rw [Fields.classify, fields, h]

theorem classify_of_kind (kind : EventKind) (h : c.kind = kind.label.toList) (x : Binary64) :
    Fields.classify f (c.fields x) =
      match TimeOfDay.read? c.timestamp with
      | none => .error .invalidTimestamp
      | some t => .ok ⟨t, kind, String.ofList c.tag, Fields.convert f kind x⟩ := by
  rw [Fields.classify, fields, ofLabel?_ofList_eq_some_iff.mpr h]
  show (match TimeOfDay.read? (String.ofList c.timestamp).toList with
    | none => _
    | some t => _) = _
  rw [String.toList_ofList]

end Columns

/-! ## The verdict -/

namespace Verdict

variable {f : Frequency} {line : List Char} {r : Except Discard Entry}

/-- What a rule says of a line is what is made of it. -/
theorem ofLine_eq (h : Verdict f (Text.trim line) r) : Entry.ofLine f line = r := by
  cases h with
  | fieldCount hcount =>
    rw [Entry.ofLine, Fields.read_of_count_ne hcount]
    rfl
  | invalidValue c htext hvalue =>
    rw [Entry.ofLine, Fields.read_of_not_literal htext hvalue]
    rfl
  | unknownKind c x htext hvalue hrdtsc httt =>
    rw [Entry.ofLine, Fields.read_of_literal htext hvalue]
    exact Columns.classify_of_unknown (ofLabel?_ofList_eq_none hrdtsc httt) x
  | invalidTimestamp c x htext hvalue hkind htime =>
    rw [Entry.ofLine, Fields.read_of_literal htext hvalue]
    show Fields.classify f (c.fields x) = _
    rcases hkind with hkind | hkind
    · rw [Columns.classify_of_kind .rdtsc hkind, htime]
    · rw [Columns.classify_of_kind .ttt hkind, htime]
  | duration c x t htext hvalue hkind htime =>
    rw [Entry.ofLine, Fields.read_of_literal htext hvalue]
    show Fields.classify f (c.fields x) = _
    rw [Columns.classify_of_kind .rdtsc hkind, htime]
    rfl
  | reading c x t htext hvalue hkind htime =>
    rw [Entry.ofLine, Fields.read_of_literal htext hvalue]
    show Fields.classify f (c.fields x) = _
    rw [Columns.classify_of_kind .ttt hkind, htime]
    rfl

/-- **There is a rule for every line.** -/
theorem exists_verdict (f : Frequency) (s : List Char) : ∃ r, Verdict f s r := by
  by_cases hcount : s.count ' ' = 3
  · obtain ⟨c, htext⟩ := Columns.exists_text_iff.mpr hcount
    cases hvalue : Decimal.literal? c.value with
    | none => exact ⟨_, .invalidValue c htext hvalue⟩
    | some x =>
      by_cases hrdtsc : c.kind = "RDTSC".toList
      · cases htime : TimeOfDay.read? c.timestamp with
        | none => exact ⟨_, .invalidTimestamp c x htext hvalue (Or.inl hrdtsc) htime⟩
        | some t => exact ⟨_, .duration c x t htext hvalue hrdtsc htime⟩
      by_cases httt : c.kind = "TTT".toList
      · cases htime : TimeOfDay.read? c.timestamp with
        | none => exact ⟨_, .invalidTimestamp c x htext hvalue (Or.inr httt) htime⟩
        | some t => exact ⟨_, .reading c x t htext hvalue httt htime⟩
      exact ⟨_, .unknownKind c x htext hvalue hrdtsc httt⟩
  · exact ⟨_, .fieldCount hcount⟩

theorem iff_ofLine_eq : Verdict f (Text.trim line) r ↔ Entry.ofLine f line = r := by
  constructor
  · exact ofLine_eq
  · rintro rfl
    obtain ⟨r, hr⟩ := exists_verdict f (Text.trim line)
    rw [hr.ofLine_eq]
    exact hr

end Verdict

/-- The columns that an entry was made of. -/
theorem Columns.exists_parts_of_ofLine {f : Frequency} {line : List Char} {e : Entry}
    (h : Entry.ofLine f line = .ok e) :
    ∃ (c : Columns) (x : Binary64), c.text = Text.trim line ∧
      TimeOfDay.read? c.timestamp = some e.time ∧ c.kind = e.kind.label.toList ∧
      e.tag = String.ofList c.tag ∧ Decimal.literal? c.value = some x ∧
      e.value = Fields.convert f e.kind x := by
  cases Verdict.iff_ofLine_eq.mpr h with
  | duration c x t htext hvalue hkind htime => exact ⟨c, x, htext, htime, hkind, rfl, hvalue, rfl⟩
  | reading c x t htext hvalue hkind htime => exact ⟨c, x, htext, htime, hkind, rfl, hvalue, rfl⟩

/-! ## Putting together and taking apart -/

namespace Columns

variable {c : Columns} {x : Binary64}

theorem solidStart_text (hne : c.timestamp ≠ []) (h : Text.SolidStart c.timestamp) :
    Text.SolidStart c.text := by
  obtain ⟨first, rest, hsplit⟩ := List.exists_cons_of_ne_nil hne
  intro d hd
  apply h d
  rw [text, hsplit] at hd
  rw [hsplit]
  exact hd

theorem solidEnd_text (h : Decimal.literal? c.value = some x) : Text.SolidEnd c.text := by
  have hsplit : c.text =
      (c.timestamp ++ ' ' :: (c.kind ++ ' ' :: (c.tag ++ [' ']))) ++ c.value := by
    simp [text]
  intro d hd
  apply Text.solidEnd_of_forall (Decimal.isBlank_of_mem_literal h) d
  have hlast := List.getLast?_eq_some_getLast (Decimal.ne_nil_of_literal h)
  rw [hsplit, List.getLast?_append, hlast, Option.some_or] at hd
  rw [hlast]
  exact hd

/-- **What columns are put together to is read as the same columns.** -/
theorem read_text (hne : c.timestamp ≠ []) (hstart : Text.SolidStart c.timestamp)
    (hvalue : Decimal.literal? c.value = some x) : Fields.read c.text = .ok (c.fields x) := by
  refine Fields.read_of_literal ?_ hvalue
  exact (Text.trim_eq_self (solidStart_text hne hstart) (solidEnd_text hvalue)).symm

end Columns

/-- **A line is taken for what the rules say, and for nothing else.** White space around it is dropped,
which leaves one text; with three spaces that is four columns in one way. The answer is the one whose rule
applies: it is made of these columns, or it gives the first cause for which there is none. Columns that are
put together are read as they were, if the first has something in it and does not begin with white space,
and the last is a literal. -/
theorem Entry.ofLine_eq_iff (f : Frequency) :
    (∀ line, ∃! s, Text.Trims line s) ∧
    (∀ s : List Char, s.count ' ' = 3 → ∃! c : Columns, c.text = s) ∧
    (∀ line s, Text.Trims line s → ∀ r, Entry.ofLine f line = r ↔ Verdict f s r) ∧
    ∀ (c : Columns) (x : Binary64), c.timestamp ≠ [] →
      (∀ d, c.timestamp.head? = some d → Text.isBlank d = false) →
      Decimal.literal? c.value = some x →
      Fields.read (c.timestamp ++ ' ' :: (c.kind ++ ' ' :: (c.tag ++ ' ' :: c.value))) =
        .ok ⟨String.ofList c.timestamp, String.ofList c.kind, String.ofList c.tag, x⟩ := by
  refine ⟨?_, ?_, ?_, ?_⟩
  · intro line
    exact ⟨Text.trim line, Text.trims_trim line, fun s hs => Text.trims_iff.mp hs⟩
  · intro s hs
    obtain ⟨c, hc⟩ := Columns.exists_text_iff.mpr hs
    exact ⟨c, hc, fun d hd => Columns.text_injective (hd.trans hc.symm)⟩
  · intro line s hs r
    rw [Text.trims_iff.mp hs]
    exact Verdict.iff_ofLine_eq.symm
  · intro c x hne hstart hvalue
    exact Columns.read_text hne hstart hvalue

/-- The columns of a duration. -/
def durationColumns : Columns where
  timestamp := "10:00:00.5".toList
  kind := "RDTSC".toList
  tag := "parse".toList
  value := "26".toList
  spaceless := by decide

theorem Entry.ofLine_eq_iff_durationColumns :
    (" 10:00:00.5 RDTSC parse 26\r\n".toList.count ' ' = 4 ∧
      Text.Trims " 10:00:00.5 RDTSC parse 26\r\n".toList durationColumns.text ∧
      durationColumns.text.count ' ' = 3 ∧ (∃! c : Columns, c.text = durationColumns.text)) ∧
    (∀ r, Entry.ofLine .default " 10:00:00.5 RDTSC parse 26\r\n".toList = r ↔
      Verdict .default durationColumns.text r) ∧
    durationColumns.timestamp ≠ [] ∧
    (∀ d, durationColumns.timestamp.head? = some d → Text.isBlank d = false) ∧
    Decimal.literal? durationColumns.value = some (.ofNat 26) ∧
    Fields.read "10:00:00.5 RDTSC parse 26".toList = .ok ⟨"10:00:00.5", "RDTSC", "parse", .ofNat 26⟩ := by
  obtain ⟨_, hsplit, hverdict, hread⟩ := Entry.ofLine_eq_iff .default
  have htrims : Text.Trims " 10:00:00.5 RDTSC parse 26\r\n".toList durationColumns.text :=
    Text.trims_iff.mpr (by decide)
  have hcount : durationColumns.text.count ' ' = 3 := by decide
  have hne : durationColumns.timestamp ≠ [] := by decide
  have hstart : ∀ d, durationColumns.timestamp.head? = some d → Text.isBlank d = false := by
    rintro d ⟨⟩
    decide
  have hvalue : Decimal.literal? durationColumns.value = some (.ofNat 26) := by decide +kernel
  exact ⟨⟨by decide, htrims, hcount, hsplit _ hcount⟩, hverdict _ _ htrims, hne, hstart, hvalue,
    hread durationColumns (.ofNat 26) hne hstart hvalue⟩

/-! ## Lines that log integers -/

/-- The line has four columns: a time, a kind, a tag, and an integer, which is digits with a sign allowed in
front. -/
def LogsInteger (line : List Char) (kind : EventKind) (time : TimeOfDay) (tag : String) (n : Int) : Prop :=
  ∃ c : Columns, c.text = Text.trim line ∧ TimeOfDay.read? c.timestamp = some time ∧
    c.kind = kind.label.toList ∧ String.ofList c.tag = tag ∧ Decimal.signedInt? c.value = some n

namespace LogsInteger

variable {line : List Char} {kind : EventKind} {time : TimeOfDay} {tag : String} {n : Int}

/-- **The line is accepted, and the number that is converted is the integer.** -/
theorem exists_ofLine (h : LogsInteger line kind time tag n) (hn : n.natAbs ≤ 2 ^ 53) (f : Frequency) :
    ∃ x : Binary64, x.Whole n ∧
      Entry.ofLine f line = .ok ⟨time, kind, tag, Fields.convert f kind x⟩ := by
  obtain ⟨c, htext, htime, hkind, rfl, hvalue⟩ := h
  obtain ⟨x, hliteral, hwhole⟩ := Decimal.exists_whole_of_signedInt? hvalue hn
  refine ⟨x, hwhole, Verdict.ofLine_eq ?_⟩
  cases kind with
  | rdtsc => exact .duration c x time htext hliteral hkind htime
  | ttt => exact .reading c x time htext hliteral hkind htime

end LogsInteger

end LatencyLog
