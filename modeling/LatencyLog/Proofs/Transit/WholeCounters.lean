import LatencyLog.Proofs.LogLine.Verdict
import LatencyLog.Proofs.Store.NormalForm
import LatencyLog.Proofs.Transit.Neighbours

/-!
# Counters that are whole numbers

The readings of a counter are integers, and what one wants of them are differences of integers. On the way
there they are read from decimal text, told apart by their bits, put into order and subtracted, all of it with
numbers that round. Up to 2^53 none of it does. A `CounterReading` is what a line logs, with the integer as
an integer, and all that is done with readings is said of these: repetitions are dropped and the rest is
ordered (`inOrder`), and neighbours are subtracted where the second is at the destination and has more
(`Hop.differences`). The transits of a hop are these differences, one for one (`transits_of_counters`).

Everything goes through one relation, `Record.Holds`, between a record and a reading. Records that hold
readings have one key exactly if these are one reading, so both lists lose the same elements; a record has
the time of its reading, so both are sorted alike. And neither of two counters being below 0 or above 2^53,
their difference is within the bound as well. It would not do to have differences bounded and counters not:
what is lost of a counter is lost when it is read.
-/

namespace LatencyLog

/-! ## Lists in step -/

theorem forall₂_getElem? {α β : Type} {R : α → β → Prop} {xs : List α} {ys : List β}
    (h : List.Forall₂ R xs ys) (i : Nat) : Option.Rel R xs[i]? ys[i]? := by
  induction h generalizing i with
  | nil => exact .none
  | cons hxy _ ih =>
    cases i with
    | zero => exact .some hxy
    | succ i => exact ih i

theorem isSome_eq_of_rel {α β : Type} {R : α → β → Prop} {a : Option α} {b : Option β}
    (h : Option.Rel R a b) : a.isSome = b.isSome := by
  cases h with
  | none => rfl
  | some _ => rfl

/-! ## Readings -/

/-- What a line logs of a counter. -/
structure CounterReading where
  time : TimeOfDay
  tag : String
  count : Nat
  count_le : count ≤ 2 ^ 53
deriving DecidableEq

/-- Each reading once, in the order of time; those of one time in the order in which they came. -/
def CounterReading.inOrder (readings : List CounterReading) : List CounterReading :=
  readings.eraseDups.mergeSort fun c d => decide (c.time ≤ d.time)

namespace Hop

/-- The readings at one of the two ends. -/
def readings (hop : Hop) (stream : List CounterReading) : List CounterReading :=
  stream.filter fun c => hop.selects c.tag

/-- The difference at a position among the readings of a hop: at the destination, if there is one reading
before and it is less. -/
def differenceAt? (hop : Hop) (events : List CounterReading) : (position : Nat) → Option (TimeOfDay × Nat)
  | 0 => none
  | i + 1 =>
    match events[i]?, events[i + 1]? with
    | some before, some event =>
      if event.tag = hop.destination ∧ before.count < event.count then
        some (event.time, event.count - before.count)
      else none
    | _, _ => none

/-- The differences of a hop in a stream of readings, each at the time of its second reading. -/
def differences (hop : Hop) (stream : List CounterReading) : List (TimeOfDay × Nat) :=
  (List.range (hop.readings stream).length).filterMap (hop.differenceAt? (hop.readings stream))

end Hop

/-! ## Records of readings -/

/-- A record holds a reading, to the last unit. -/
structure Record.Holds (r : Record) (c : CounterReading) : Prop where
  time : r.time = c.time
  tag : r.tag = c.tag
  value : r.value.Whole c.count

theorem Record.Holds.key_eq_iff {r r' : Record} {c c' : CounterReading} (h : r.Holds c) (h' : r'.Holds c') :
    r.key = r'.key ↔ c = c' := by
  have hvalue := h.value.valueKey_eq_iff h'.value
  constructor
  · intro hkey
    obtain ⟨htime, htag, hkeys⟩ := Record.Key.mk.inj hkey
    have hcount : c.count = c'.count := Int.ofNat_inj.mp (hvalue.mp hkeys)
    rw [h.time, h'.time] at htime
    rw [h.tag, h'.tag] at htag
    obtain ⟨time, tag, count, _⟩ := c
    obtain ⟨time', tag', count', _⟩ := c'
    subst htime htag hcount
    rfl
  · rintro rfl
    rw [Record.key, Record.key, h.time, h'.time, h.tag, h'.tag, hvalue.mpr rfl]

theorem Record.Holds.zero_lt_sub_iff {r r' : Record} {c c' : CounterReading} (h : r.Holds c)
    (h' : r'.Holds c') : Binary64.zero.lt (r'.value - r.value) = true ↔ c.count < c'.count := by
  rw [Binary64.zero_lt_sub, h.value.lt_iff h'.value, Int.ofNat_lt]

/-- **Of two counters within the bound the difference is exact.** -/
theorem Record.Holds.sub {r r' : Record} {c c' : CounterReading} (h : r.Holds c) (h' : r'.Holds c')
    (hlt : c.count < c'.count) : (r'.value - r.value).Whole ((c'.count - c.count : Nat) : Int) := by
  have hbound := c'.count_le
  rw [Int.ofNat_sub (Nat.le_of_lt hlt)]
  exact h'.value.sub h.value (by omega)

/-- What is not accepted does not count. -/
theorem accepted_filter (f : Frequency) (kind : EventKind) (as : List Arrival) :
    accepted f kind (as.filter fun a => (a.record? f kind).isSome) = accepted f kind as := by
  rw [accepted, List.filterMap_filter]
  refine List.filterMap_congr fun a _ => ?_
  cases a.record? f kind <;> rfl

/-- Lines that log counters are accepted as they are. -/
theorem accepted_lines {lines : List (List Char)} {readings : List CounterReading}
    (hlog : List.Forall₂ (fun line c => LogsInteger line .ttt c.time c.tag c.count) lines readings)
    (f : Frequency) : List.Forall₂ Record.Holds (accepted f .ttt (lines.map .line)) readings := by
  induction hlog with
  | nil => exact .nil
  | @cons line c lines readings hline _ ih =>
    obtain ⟨x, hwhole, hread⟩ := hline.exists_ofLine (by simpa using c.count_le) f
    have hrecord : (Arrival.line line).record? f .ttt = some ⟨c.time, c.tag, x⟩ := by
      rw [Arrival.record?, Arrival.read, hread]
      rfl
    rw [List.map_cons, accepted_cons, hrecord]
    exact .cons ⟨rfl, rfl, hwhole⟩ ih

/-- **Records are put into their final form as readings are.** -/
theorem normalize_holds {records : List Record} {readings : List CounterReading}
    (h : List.Forall₂ Record.Holds records readings) :
    List.Forall₂ Record.Holds (RecordSet.normalize records) (CounterReading.inOrder readings) := by
  have hleft := forall₂_firstOccurrences (fun _ _ _ _ hr hr' => hr.key_eq_iff hr') h
  exact forall₂_mergeSort (fun r c hr => congrArg TimeOfDay.count hr.time) hleft

/-! ## Differences -/

namespace Hop

variable {hop : Hop} {events : List Record} {readings : List CounterReading}

theorem select_holds (hop : Hop) {stream : List Record} {readings : List CounterReading}
    (h : List.Forall₂ Record.Holds stream readings) :
    List.Forall₂ Record.Holds (hop.select stream) (hop.readings readings) :=
  List.rel_filter (fun _ _ hr => iff_of_eq (congrArg (hop.selects · = true) hr.tag)) h

/-- What is measured is a difference, at its time. -/
def Measures (p : Point) (d : TimeOfDay × Nat) : Prop := p.time = d.1 ∧ p.value.Whole d.2

theorem transitAt?_measures (h : List.Forall₂ Record.Holds events readings) (i : Nat) :
    Option.Rel Measures (hop.transitAt? events i) (hop.differenceAt? readings i) := by
  cases i with
  | zero => exact .none
  | succ i =>
    have hbefore := forall₂_getElem? h i
    have hevent := forall₂_getElem? h (i + 1)
    rw [transitAt?, differenceAt?]
    generalize events[i]? = before, readings[i]? = before' at hbefore ⊢
    generalize events[i + 1]? = event, readings[i + 1]? = event' at hevent ⊢
    cases hbefore with
    | none => exact .none
    | some hbefore =>
      cases hevent with
      | none => exact .none
      | some hevent =>
        simp only [hevent.tag, hbefore.zero_lt_sub_iff hevent]
        split
        · rename_i hless
          exact .some ⟨hevent.time, hbefore.sub hevent hless.2⟩
        · exact .none

theorem isSome_differenceAt?_iff {i : Nat} {before event : CounterReading}
    (hbefore : readings[i]? = some before) (hevent : readings[i + 1]? = some event)
    (htag : event.tag = hop.destination) :
    (hop.differenceAt? readings (i + 1)).isSome = true ↔ before.count < event.count := by
  simp only [differenceAt?, hbefore, hevent]
  by_cases hless : before.count < event.count
  · rw [if_pos ⟨htag, hless⟩]
    exact iff_of_true rfl hless
  · rw [if_neg fun h => hless h.2]
    exact iff_of_false Bool.false_ne_true hless

theorem transits_measure (hop : Hop) {stream : List Record} {readings : List CounterReading}
    (h : List.Forall₂ Record.Holds stream readings) :
    List.Forall₂ Measures (hop.transits stream) (hop.differences readings) := by
  have hevents := hop.select_holds h
  have hpositions : ∀ n, List.Forall₂ (· = ·) (List.range n) (List.range n) := fun n =>
    List.forall₂_same.mpr fun _ _ => rfl
  rw [transits_eq_filterMap_transitAt?, differences, hevents.length_eq]
  refine List.rel_filterMap ?_ (hpositions _)
  rintro i _ rfl
  exact transitAt?_measures hevents i

end Hop

/-- **Counters up to 2^53 are subtracted exactly.** The readings that reach a store are logged by lines, and
the integers of these are between 0 and 2^53; whatever else reaches the store is not accepted as a reading.
Then the stream of the store holds these readings, each once and in order. The transits of a hop are their
differences, one for one; and at the destination, behind a reading, there is one exactly if the reading
there is greater. -/
theorem transits_of_counters (f : Frequency) (hop : Hop) {steps : List Step} {lines : List (List Char)}
    {readings : List CounterReading}
    (hsteps : (arrivals steps).filter (fun a => (a.record? f .ttt).isSome) = lines.map .line)
    (hlog : List.Forall₂ (fun line c => LogsInteger line .ttt c.time c.tag c.count) lines readings) :
    let stream := ((Store.empty f).run steps).finish.ttt
    let ordered := CounterReading.inOrder readings
    List.Forall₂ Record.Holds stream ordered ∧
    List.Forall₂ Hop.Measures (hop.transits stream) (hop.differences ordered) ∧
    hop.transits stream =
      (List.range (hop.select stream).length).filterMap (hop.transitAt? (hop.select stream)) ∧
    ∀ i before event, (hop.readings ordered)[i]? = some before →
      (hop.readings ordered)[i + 1]? = some event → event.tag = hop.destination →
      ((hop.transitAt? (hop.select stream) (i + 1)).isSome = true ↔ before.count < event.count) := by
  intro stream ordered
  have hstream : List.Forall₂ Record.Holds stream ordered := by
    have hnormal := Store.stream_run_empty f steps .ttt
    rw [← accepted_filter, hsteps] at hnormal
    show List.Forall₂ Record.Holds (((Store.empty f).run steps).finish.stream .ttt) ordered
    rw [hnormal]
    exact normalize_holds (accepted_lines hlog f)
  refine ⟨hstream, hop.transits_measure hstream, Hop.transits_eq_filterMap_transitAt? hop stream, ?_⟩
  intro i before event hbefore hevent htag
  have hmeasures : Option.Rel Hop.Measures _ (hop.differenceAt? (hop.readings ordered) (i + 1)) :=
    Hop.transitAt?_measures (hop.select_holds hstream) (i + 1)
  rw [isSome_eq_of_rel hmeasures]
  exact Hop.isSome_differenceAt?_iff hbefore hevent htag

/-! ## Readings at the bound -/

def oneTenth : TimeOfDay := (TimeOfDay.read? "10:00:00.1".toList).get (by decide +kernel)

def twoTenths : TimeOfDay := (TimeOfDay.read? "10:00:00.2".toList).get (by decide +kernel)

/-- The lines of the two greatest counters, the second one twice and with another literal. -/
def linesAtBound : List (List Char) :=
  ["10:00:00.1 TTT in 9007199254740991".toList, "10:00:00.2 TTT out 9007199254740992".toList,
    "10:00:00.2 TTT out +09007199254740992".toList]

def readingsAtBound : List CounterReading :=
  [⟨oneTenth, "in", 2 ^ 53 - 1, by decide⟩, ⟨twoTenths, "out", 2 ^ 53, by decide⟩,
    ⟨twoTenths, "out", 2 ^ 53, by decide⟩]

/-- They arrive with a line among them that is no reading. -/
def atBound : List Step :=
  (linesAtBound.take 2).map .line ++ .line "10:00:00.2 RDTSC out 5".toList :: (linesAtBound.drop 2).map .line

theorem transits_of_counters_atBound :
    (arrivals atBound).filter (fun a => (a.record? .default .ttt).isSome) = linesAtBound.map .line ∧
      List.Forall₂ (fun line c => LogsInteger line .ttt c.time c.tag c.count) linesAtBound readingsAtBound ∧
      CounterReading.inOrder readingsAtBound = readingsAtBound.take 2 ∧
      List.Forall₂ Hop.Measures
        ((Hop.mk "in" "out").transits ((Store.empty .default).run atBound).finish.ttt)
        [(twoTenths, 1)] := by
  have hsteps : (arrivals atBound).filter (fun a => (a.record? .default .ttt).isSome) =
      linesAtBound.map .line := by
    change List.filter _ (_ :: _ :: _ :: _ :: []) = _
    rw [List.filter_cons_of_pos (by decide +kernel), List.filter_cons_of_pos (by decide +kernel),
      List.filter_cons_of_neg (by decide +kernel), List.filter_cons_of_pos (by decide +kernel)]
    rfl
  have hlog : List.Forall₂ (fun line c => LogsInteger line .ttt c.time c.tag c.count)
      linesAtBound readingsAtBound := by
    refine .cons ?_ (.cons ?_ (.cons ?_ .nil))
    · exact ⟨⟨"10:00:00.1".toList, "TTT".toList, "in".toList, "9007199254740991".toList, by decide⟩,
        by decide, by decide +kernel, rfl, by decide, by decide +kernel⟩
    · exact ⟨⟨"10:00:00.2".toList, "TTT".toList, "out".toList, "9007199254740992".toList, by decide⟩,
        by decide, by decide +kernel, rfl, by decide, by decide +kernel⟩
    · exact ⟨⟨"10:00:00.2".toList, "TTT".toList, "out".toList, "+09007199254740992".toList, by decide⟩,
        by decide, by decide +kernel, rfl, by decide, by decide +kernel⟩
  have hordered : CounterReading.inOrder readingsAtBound = readingsAtBound.take 2 := by
    have hdups : readingsAtBound.eraseDups = readingsAtBound.take 2 := by decide +kernel
    rw [CounterReading.inOrder, hdups]
    exact List.mergeSort_of_pairwise (by decide +kernel)
  obtain ⟨_, hmeasures, _⟩ := transits_of_counters .default ⟨"in", "out"⟩ hsteps hlog
  rw [hordered] at hmeasures
  exact ⟨hsteps, hlog, hordered, hmeasures⟩

end LatencyLog
