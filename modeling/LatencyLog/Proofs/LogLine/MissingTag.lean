import LatencyLog.Proofs.LogLine.Verdict

/-!
# Columns with nothing in them

Two spaces in a row have an empty column between them. In a line that had four columns before there are
five then, and it is dropped. A line that had three has four, and it is for the columns to be more than
empty: an empty kind names no kind, an empty time is no time, and an empty value is no number. Of a tag
nothing is asked. So a line without a tag is dropped if one space is left in its place, and taken if two
are; an entry with an empty tag is the only trace (`ofLine_missingTag`).
-/

namespace LatencyLog

/-! ## Two in a row -/

theorem pair_prefix_iff {α : Type} {a b : α} {rest : List α} :
    [a, a] <+: b :: rest ↔ b = a ∧ rest.head? = some a := by
  rw [List.cons_prefix_cons]
  cases rest with
  | nil => simp
  | cons c rest => simp [List.cons_prefix_cons, eq_comm]

/-- Where a text has none before the first one, the first one has another behind it or counts for
nothing. -/
theorem pair_infix_append_iff {α : Type} {a : α} {front rest : List α} (h : a ∉ front) :
    [a, a] <:+: front ++ a :: rest ↔ rest.head? = some a ∨ [a, a] <:+: rest := by
  induction front with
  | nil => rw [List.nil_append, List.infix_cons_iff, pair_prefix_iff, and_iff_right rfl]
  | cons b front ih =>
    rw [List.mem_cons, not_or] at h
    have hstart : ¬ [a, a] <+: b :: (front ++ a :: rest) :=
      fun hpair => h.1 (pair_prefix_iff.mp hpair).1.symm
    rw [List.cons_append, List.infix_cons_iff, or_iff_right hstart]
    exact ih h.2

theorem head?_append_cons_eq_iff {α : Type} {a : α} {front rest : List α} (h : a ∉ front) :
    (front ++ a :: rest).head? = some a ↔ front = [] := by
  cases front with
  | nil => simp
  | cons b front =>
    rw [List.mem_cons, not_or] at h
    simpa using Ne.symm h.1

namespace Columns

/-! ## Empty columns of a text -/

/-- How many columns have something in them. -/
def filled (pieces : List (List Char)) : Nat := pieces.countP (!·.isEmpty)

/-- **Two spaces in a row are an empty column in the middle.** -/
theorem doubled_iff (c : Columns) : [' ', ' '] <:+: c.text ↔ c.kind = [] ∨ c.tag = [] := by
  obtain ⟨timestamp, kind, tag, value, hspaceless⟩ := c
  simp only [List.forall_mem_cons] at hspaceless
  obtain ⟨htimestamp, hkind, htag, hvalue, _⟩ := hspaceless
  have hhead : value.head? ≠ some ' ' := fun h => hvalue (List.mem_of_head? h)
  have hinside : ¬ [' ', ' '] <:+: value :=
    fun h => hvalue (h.subset (List.mem_cons_self ..))
  rw [text, pair_infix_append_iff htimestamp, head?_append_cons_eq_iff hkind,
    pair_infix_append_iff hkind, head?_append_cons_eq_iff htag, pair_infix_append_iff htag]
  simp only [hhead, hinside, or_false]

/-! ## Accepted columns -/

/-- What is asked of the columns of an accepted line. -/
structure Accepted (c : Columns) : Prop where
  time : ∃ t, TimeOfDay.read? c.timestamp = some t
  kind : ∃ kind : EventKind, c.kind = kind.label.toList
  value : ∃ x, Decimal.literal? c.value = some x

namespace Accepted

variable {c : Columns}

theorem timestamp_ne_nil (h : c.Accepted) : c.timestamp ≠ [] := by
  intro hnil
  obtain ⟨t, ht⟩ := h.time
  rw [hnil] at ht
  cases ht

theorem kind_ne_nil (h : c.Accepted) : c.kind ≠ [] := by
  obtain ⟨kind, hkind⟩ := h.kind
  rw [hkind]
  cases kind with
  | rdtsc => decide
  | ttt => decide

theorem value_ne_nil (h : c.Accepted) : c.value ≠ [] := by
  obtain ⟨x, hx⟩ := h.value
  exact Decimal.ne_nil_of_literal hx

theorem filled_pieces (h : c.Accepted) :
    filled c.pieces = if c.tag = [] then 3 else 4 := by
  have htimestamp := h.timestamp_ne_nil
  have hkind := h.kind_ne_nil
  have hvalue := h.value_ne_nil
  by_cases htag : c.tag = []
  · simp [filled, pieces, htag, htimestamp, hkind, hvalue]
  · simp [filled, pieces, htag, htimestamp, hkind, hvalue]

end Accepted

variable {f : Frequency} {line : List Char} {e : Entry}

theorem exists_of_ofLine (h : Entry.ofLine f line = .ok e) :
    ∃ c : Columns, c.text = Text.trim line ∧ c.Accepted ∧ e.tag = String.ofList c.tag := by
  obtain ⟨c, x, htext, htime, hkind, htag, hvalue, _⟩ := exists_parts_of_ofLine h
  exact ⟨c, htext, ⟨⟨e.time, htime⟩, ⟨e.kind, hkind⟩, ⟨x, hvalue⟩⟩, htag⟩

/-- **Nothing is asked of the tag.** -/
theorem accepted_iff {c : Columns} (htext : c.text = Text.trim line) :
    c.Accepted ↔ ∃ e, Entry.ofLine f line = .ok e := by
  constructor
  · rintro ⟨⟨t, ht⟩, ⟨kind, hkind⟩, ⟨x, hx⟩⟩
    cases kind with
    | rdtsc => exact ⟨_, (Verdict.duration c x t htext hx hkind ht).ofLine_eq⟩
    | ttt => exact ⟨_, (Verdict.reading c x t htext hx hkind ht).ofLine_eq⟩
  · rintro ⟨e, he⟩
    obtain ⟨d, hd, haccepted, _⟩ := exists_of_ofLine he
    rwa [text_injective (htext.trans hd.symm)]

end Columns

/-! ## Entries without a tag -/

/-- **Of the columns of an accepted line, the tag alone may be missing.** The line then has two spaces in a
row and three columns with something in them, and otherwise it has neither two spaces in a row nor an empty
column. The tag makes no difference to whether a line is accepted: that is for the time, the kind and the
value to decide. -/
theorem Entry.ofLine_missingTag (f : Frequency) (line : List Char) :
    (∀ e, Entry.ofLine f line = .ok e →
      ∃ c : Columns, c.text = Text.trim line ∧ e.tag = String.ofList c.tag ∧
        c.timestamp ≠ [] ∧ c.kind ≠ [] ∧ c.value ≠ [] ∧
        ([' ', ' '] <:+: Text.trim line ↔ e.tag = "") ∧
        Columns.filled (Fields.splitSpaces (Text.trim line)) = if e.tag = "" then 3 else 4) ∧
    ∀ c : Columns, c.text = Text.trim line →
      ((∃ e, Entry.ofLine f line = .ok e) ↔
        (∃ t, TimeOfDay.read? c.timestamp = some t) ∧
        (c.kind = "RDTSC".toList ∨ c.kind = "TTT".toList) ∧
        ∃ x, Decimal.literal? c.value = some x) := by
  constructor
  · intro e he
    obtain ⟨c, htext, haccepted, htag⟩ := Columns.exists_of_ofLine he
    refine ⟨c, htext, htag, haccepted.timestamp_ne_nil, haccepted.kind_ne_nil,
      haccepted.value_ne_nil, ?_, ?_⟩
    · rw [← htext, c.doubled_iff, or_iff_right haccepted.kind_ne_nil, htag, String.ofList_eq_empty_iff]
    · rw [← htext, c.splitSpaces_text, haccepted.filled_pieces, htag]
      simp only [String.ofList_eq_empty_iff]
  · intro c htext
    rw [← Columns.accepted_iff htext]
    constructor
    · rintro ⟨htime, ⟨kind, hkind⟩, hvalue⟩
      cases kind with
      | rdtsc => exact ⟨htime, Or.inl hkind, hvalue⟩
      | ttt => exact ⟨htime, Or.inr hkind, hvalue⟩
    · rintro ⟨htime, hkind | hkind, hvalue⟩
      · exact ⟨htime, ⟨.rdtsc, hkind⟩, hvalue⟩
      · exact ⟨htime, ⟨.ttt, hkind⟩, hvalue⟩

/-- The columns of a line whose tag was lost. -/
def tornColumns : Columns where
  timestamp := "10:00:00".toList
  kind := "TTT".toList
  tag := []
  value := "5".toList
  spaceless := by decide

/-- A line that lost its tag and kept the spaces around it is accepted. -/
theorem Entry.ofLine_tornColumns :
    (Entry.ofLine .default "10:00:00 TTT  5".toList).toOption.map Entry.tag = some "" ∧
    ([' ', ' '] <:+: "10:00:00 TTT  5".toList) ∧
    Columns.filled (Fields.splitSpaces (Text.trim "10:00:00 TTT  5".toList)) = 3 := by
  decide +kernel

theorem Entry.ofLine_missingTag_tornColumns :
    tornColumns.text = Text.trim "10:00:00 TTT  5".toList ∧
    (∃ e, Entry.ofLine .default "10:00:00 TTT  5".toList = .ok e ∧
      ∃ c : Columns, c.text = Text.trim "10:00:00 TTT  5".toList ∧ e.tag = String.ofList c.tag ∧
        c.timestamp ≠ [] ∧ c.kind ≠ [] ∧ c.value ≠ [] ∧
        ([' ', ' '] <:+: Text.trim "10:00:00 TTT  5".toList ↔ e.tag = "") ∧
        Columns.filled (Fields.splitSpaces (Text.trim "10:00:00 TTT  5".toList)) =
          if e.tag = "" then 3 else 4) := by
  obtain ⟨hcolumns, haccepted⟩ := Entry.ofLine_missingTag .default "10:00:00 TTT  5".toList
  have htext : tornColumns.text = Text.trim "10:00:00 TTT  5".toList := by decide
  have htime : (TimeOfDay.read? tornColumns.timestamp).isSome = true := by decide +kernel
  have hvalue : (Decimal.literal? tornColumns.value).isSome = true := by decide +kernel
  obtain ⟨e, he⟩ := (haccepted tornColumns htext).mpr
    ⟨Option.isSome_iff_exists.mp htime, by decide, Option.isSome_iff_exists.mp hvalue⟩
  exact ⟨htext, e, he, hcolumns e he⟩

end LatencyLog
