import LatencyLog.Proofs.Store.Sources

/-!
# What counters count

A store counts lines, accepted entries of either kind and skipped lines of four sorts, in seven words that
are changed in different places. What keeps them together is that each arrival is counted in full at one
go: once as a line, unless it was pushed, and once for what became of it. So each counter is the number of
arrivals with a certain property (`Tally.Counts`), and the properties divide the arrivals up in two ways,
by where they came from (`length_eq_lines`) and by what became of them (`length_eq_outcomes`).

Counters are 64-bit words, so what they count is right as long as none overflows (`CountersFit`).
-/

namespace LatencyLog

/-! ## Counters of a tally -/

namespace Tally

/-- The counter of accepted entries of a kind. -/
def entries (t : Tally) : EventKind → UInt64
  | .rdtsc => t.rdtsc
  | .ttt => t.ttt

/-- The counter of lines that were skipped for a cause. -/
def skipped (t : Tally) : Discard → UInt64
  | .fieldCount => t.badFieldCount
  | .invalidValue => t.badValue
  | .invalidTimestamp => t.badTimestamp
  | .unknownKind => t.unknownKind

/-- No counter is beyond its counterpart. -/
structure AtMost (t u : Tally) : Prop where
  lines : t.lines ≤ u.lines
  entries : ∀ kind, t.entries kind ≤ u.entries kind
  skipped : ∀ d, t.skipped d ≤ u.skipped d
  discarded : t.discarded ≤ u.discarded

theorem lines_add (t u : Tally) : (t + u).lines = t.lines + u.lines := rfl

theorem entries_add (t u : Tally) (kind : EventKind) :
    (t + u).entries kind = t.entries kind + u.entries kind := by
  cases kind <;> rfl

theorem skipped_add (t u : Tally) (d : Discard) :
    (t + u).skipped d = t.skipped d + u.skipped d := by
  cases d <;> rfl

theorem discarded_eq (t : Tally) : t.discarded =
    t.skipped .fieldCount + t.skipped .invalidValue + t.skipped .invalidTimestamp +
      t.skipped .unknownKind := rfl

theorem entries_zero (kind : EventKind) : (0 : Tally).entries kind = 0 := by
  cases kind <;> rfl

theorem skipped_zero (d : Discard) : (0 : Tally).skipped d = 0 := by
  cases d <;> rfl

theorem entries_countEntry (k kind : EventKind) :
    (countEntry 0 k).entries kind = if k = kind then 1 else 0 := by
  cases k <;> cases kind <;> rfl

theorem skipped_countEntry (k : EventKind) (d : Discard) : (countEntry 0 k).skipped d = 0 := by
  cases k <;> cases d <;> rfl

theorem entries_countDiscard (d : Discard) (kind : EventKind) :
    (countDiscard 0 d).entries kind = 0 := by
  cases d <;> cases kind <;> rfl

theorem skipped_countDiscard (d d' : Discard) :
    (countDiscard 0 d).skipped d' = if d = d' then 1 else 0 := by
  cases d <;> cases d' <;> rfl

end Tally

/-! ## What an arrival counts -/

namespace Arrival

def isLine : Arrival → Bool
  | .entry _ => false
  | .line _ => true

/-- The cause for which an arrival is skipped, if it is. -/
def discard? (f : Frequency) (a : Arrival) : Option Discard :=
  match a.read f with
  | .ok _ => none
  | .error d => some d

section Outcome

variable {f : Frequency} {a : Arrival}

theorem isSome_record?_of_ok {e : Entry} (h : a.read f = .ok e) (kind : EventKind) :
    (a.record? f kind).isSome = decide (e.kind = kind) := by
  rw [record?, h]
  by_cases hkind : e.kind = kind <;> simp [hkind]

theorem record?_of_error {d : Discard} (h : a.read f = .error d) (kind : EventKind) :
    a.record? f kind = none := by
  rw [record?, h]

theorem discard?_of_ok {e : Entry} (h : a.read f = .ok e) : a.discard? f = none := by
  rw [discard?, h]

theorem discard?_of_error {d : Discard} (h : a.read f = .error d) : a.discard? f = some d := by
  rw [discard?, h]

/-- Only lines are skipped. -/
theorem isLine_of_error {d : Discard} (h : a.read f = .error d) : a.isLine = true := by
  cases a with
  | entry e => cases h
  | line text => rfl

end Outcome

theorem entries_lineTally (a : Arrival) (kind : EventKind) : a.lineTally.entries kind = 0 := by
  cases a <;> cases kind <;> rfl

theorem skipped_lineTally (a : Arrival) (d : Discard) : a.lineTally.skipped d = 0 := by
  cases a <;> cases d <;> rfl

theorem lines_tally (f : Frequency) (a : Arrival) : (a.tally f).lines = if a.isLine then 1 else 0 := by
  cases a with
  | entry e =>
    obtain ⟨time, kind, tag, value⟩ := e
    cases kind <;> rfl
  | line text => exact lines_tally_line f text

theorem entries_tally (f : Frequency) (kind : EventKind) (a : Arrival) :
    (a.tally f).entries kind = if (a.record? f kind).isSome then 1 else 0 := by
  cases h : a.read f with
  | ok e =>
    rw [tally, h, isSome_record?_of_ok h]
    simp only [Tally.entries_add, entries_lineTally, Tally.entries_countEntry, UInt64.zero_add,
      decide_eq_true_eq]
  | error d =>
    rw [tally, h, record?_of_error h]
    simp only [Tally.entries_add, entries_lineTally, Tally.entries_countDiscard]
    rfl

theorem skipped_tally (f : Frequency) (d : Discard) (a : Arrival) :
    (a.tally f).skipped d = if decide (a.discard? f = some d) then 1 else 0 := by
  cases h : a.read f with
  | ok e =>
    rw [tally, h, discard?_of_ok h]
    simp only [Tally.skipped_add, skipped_lineTally, Tally.skipped_countEntry]
    rfl
  | error d' =>
    rw [tally, h, discard?_of_error h]
    simp only [Tally.skipped_add, skipped_lineTally, Tally.skipped_countDiscard, UInt64.zero_add,
      Option.some.injEq, decide_eq_true_eq]

end Arrival

/-! ## What arrivals count -/

/-- The number of lines among arrivals. -/
def lineCount (as : List Arrival) : Nat := as.countP Arrival.isLine

/-- The number of entries among arrivals that were made elsewhere. -/
def pushCount (as : List Arrival) : Nat := as.countP fun a => !a.isLine

/-- The number of arrivals that are skipped for a cause. -/
def skipCount (f : Frequency) (d : Discard) (as : List Arrival) : Nat :=
  as.countP fun a => decide (a.discard? f = some d)

/-- The number of arrivals that are skipped. -/
def discardCount (f : Frequency) (as : List Arrival) : Nat :=
  skipCount f .fieldCount as + skipCount f .invalidValue as + skipCount f .invalidTimestamp as +
    skipCount f .unknownKind as

theorem length_accepted (f : Frequency) (kind : EventKind) (as : List Arrival) :
    (accepted f kind as).length = as.countP fun a => (a.record? f kind).isSome :=
  List.length_filterMap_eq_countP

/-- A counter that an arrival raises by one, if it has a property, counts the arrivals that have it. -/
theorem counter_sum (counter : Tally → UInt64) (hzero : counter 0 = 0)
    (hadd : ∀ t u, counter (t + u) = counter t + counter u) {f : Frequency} {p : Arrival → Bool}
    (hone : ∀ a, counter (Arrival.tally f a) = if p a then 1 else 0) (as : List Arrival) :
    counter (as.map (Arrival.tally f)).sum = UInt64.ofNat (as.countP p) := by
  -- Words and counts go round together here, so nothing has to fit.
  induction as with
  | nil => exact hzero
  | cons a as ih =>
    rw [List.map_cons, List.sum_cons, hadd, hone, ih, List.countP_cons, Nat.add_comm,
      UInt64.ofNat_add]
    congr 1
    split <;> rfl

/-! ### Two ways to divide arrivals up -/

theorem length_eq_lines (as : List Arrival) : as.length = lineCount as + pushCount as := by
  rw [List.length_eq_countP_add_countP Arrival.isLine]
  simp only [lineCount, pushCount, Bool.not_eq_true, Bool.decide_eq_false]

/-- There are no causes but the four that have a counter. -/
theorem discardCount_eq_countP (f : Frequency) (as : List Arrival) :
    discardCount f as = as.countP fun a => (a.discard? f).isSome := by
  simp only [discardCount, skipCount]
  induction as with
  | nil => rfl
  | cons a as ih =>
    simp only [List.countP_cons, ← ih]
    cases a.discard? f with
    | none => simp
    | some d => cases d <;> simp <;> omega

/-- **An arrival is accepted as one kind or skipped for one cause.** -/
theorem length_eq_outcomes (f : Frequency) (as : List Arrival) :
    as.length = (accepted f .rdtsc as).length + (accepted f .ttt as).length + discardCount f as := by
  simp only [length_accepted, discardCount_eq_countP]
  induction as with
  | nil => rfl
  | cons a as ih =>
    simp only [List.countP_cons, List.length_cons]
    cases h : a.read f with
    | ok e =>
      simp only [Arrival.isSome_record?_of_ok h, Arrival.discard?_of_ok h]
      cases e.kind <;> simp <;> omega
    | error d =>
      simp only [Arrival.record?_of_error h, Arrival.discard?_of_error h]
      simp
      omega

theorem discardCount_le_lineCount (f : Frequency) (as : List Arrival) :
    discardCount f as ≤ lineCount as := by
  rw [discardCount_eq_countP]
  refine List.countP_mono_left fun a _ hskipped => ?_
  cases h : a.read f with
  | ok e =>
    rw [Arrival.discard?_of_ok h] at hskipped
    cases hskipped
  | error d => exact Arrival.isLine_of_error h

/-! ## Counters that do not overflow -/

/-- No counter overflows over these arrivals. -/
structure CountersFit (f : Frequency) (as : List Arrival) : Prop where
  lines : lineCount as < UInt64.size
  entries : ∀ kind, (accepted f kind as).length < UInt64.size

/-- Counters overflow later if at all. -/
theorem CountersFit.of_first {f : Frequency} {as bs : List Arrival} (h : CountersFit f bs)
    (hinitial : as <+: bs) : CountersFit f as where
  lines := Nat.lt_of_le_of_lt (hinitial.sublist.countP_le) h.lines
  entries kind := Nat.lt_of_le_of_lt (hinitial.sublist.filterMap _).length_le (h.entries kind)

/-- A tally counts arrivals: its words are the numbers of these. -/
structure Tally.Counts (t : Tally) (f : Frequency) (as : List Arrival) : Prop where
  lines : t.lines.toNat = lineCount as
  entries : ∀ kind, (t.entries kind).toNat = (accepted f kind as).length
  skipped : ∀ d, (t.skipped d).toNat = skipCount f d as
  discarded : t.discarded.toNat = discardCount f as

theorem skipCount_le_discardCount (f : Frequency) (d : Discard) (as : List Arrival) :
    skipCount f d as ≤ discardCount f as := by
  cases d <;> simp only [discardCount] <;> omega

theorem counts_sum {f : Frequency} {as : List Arrival} (h : CountersFit f as) :
    (as.map (Arrival.tally f)).sum.Counts f as := by
  have hskip : ∀ d, ((as.map (Arrival.tally f)).sum).skipped d = UInt64.ofNat (skipCount f d as) := by
    intro d
    exact counter_sum (fun t => t.skipped d) (Tally.skipped_zero d)
      (fun t u => Tally.skipped_add t u d) (Arrival.skipped_tally f d) as
  have hdiscard : discardCount f as < UInt64.size :=
    Nat.lt_of_le_of_lt (discardCount_le_lineCount f as) h.lines
  refine ⟨?_, ?_, ?_, ?_⟩
  · rw [counter_sum Tally.lines rfl Tally.lines_add (Arrival.lines_tally f)]
    exact UInt64.toNat_ofNat_of_lt' h.lines
  · intro kind
    rw [counter_sum (fun t => t.entries kind) (Tally.entries_zero kind)
      (fun t u => Tally.entries_add t u kind) (Arrival.entries_tally f kind), ← length_accepted]
    exact UInt64.toNat_ofNat_of_lt' (h.entries kind)
  · intro d
    rw [hskip]
    exact UInt64.toNat_ofNat_of_lt' (Nat.lt_of_le_of_lt (skipCount_le_discardCount f d as) hdiscard)
  · rw [Tally.discarded_eq, hskip, hskip, hskip, hskip, ← UInt64.ofNat_add, ← UInt64.ofNat_add,
      ← UInt64.ofNat_add]
    exact UInt64.toNat_ofNat_of_lt' hdiscard

end LatencyLog
