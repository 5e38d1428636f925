import LatencyLog.Proofs.Store.Arrivals
import LatencyLog.Proofs.Text.Cutting
import LatencyLog.Proofs.Text.Decoding

/-!
# Sources read one after another

A source is read line by line into a store that may hold anything already, and its tally is not counted
for it but found as a difference of two tallies of the store. Neither matters: what a source brings is a
`Contribution`, records of each kind and counts, that depends on its bytes and on the frequency and on
nothing else, and reading it is gaining that (`addBytes_eq_gain`).

Contributions add up. Bytes that end with a line feed, or no bytes at all, leave no line open, so what
follows them is cut into lines as it would be alone (`Contribution.ofBytes_append`). With that, two
sources are as good as one, and a line that is torn stands between two contributions that do not know of
it (`Contribution.ofBytes_around`).

A store cuts a source into lines while it is bytes, and decodes each line by itself; that is what makes a
torn write cost its own line. One could also decode the source first and read the text. That is
`Store.addText`, and nothing in a store could tell the two apart (`addBytes_eq_addText`), as a line feed
among bytes is one in the text and the other way round, however broken the bytes around it are.
-/

namespace LatencyLog

/-- The byte that ends a line. -/
def lineFeed : UInt8 := 0x0A

/-- Bytes of which no line is left open: none, or bytes that end with a line feed. -/
def EndsLine (bytes : List UInt8) : Prop := bytes = [] ∨ bytes.getLast? = some lineFeed

instance (bytes : List UInt8) : Decidable (EndsLine bytes) := inferInstanceAs (Decidable (_ ∨ _))

theorem closed_iff_endsLine {bytes : List UInt8} :
    Text.Closed (· == lineFeed) bytes ↔ EndsLine bytes := by
  constructor
  · intro h
    cases hlast : bytes.getLast? with
    | none => exact Or.inl (List.getLast?_eq_none_iff.mp hlast)
    | some b =>
      have hb : b = lineFeed := eq_of_beq (h b hlast)
      rw [hb] at hlast
      exact Or.inr hlast
  · rintro (rfl | h)
    · exact Text.closed_nil
    · intro b hb
      rw [h] at hb
      cases hb
      exact beq_self_eq_true lineFeed

/-! ## Contributions -/

/-- What a store can gain: records of each kind, and counts. -/
structure Contribution where
  rdtsc : List Record
  ttt : List Record
  tally : Tally
deriving DecidableEq

namespace Contribution

/-- One after another: the records in their order, the counts as a sum. -/
def add (a b : Contribution) : Contribution :=
  ⟨a.rdtsc ++ b.rdtsc, a.ttt ++ b.ttt, a.tally + b.tally⟩

instance : Add Contribution := ⟨add⟩

theorem tally_add (a b : Contribution) : (a + b).tally = a.tally + b.tally := rfl

/-- What arrivals bring. -/
def ofArrivals (f : Frequency) (as : List Arrival) : Contribution :=
  ⟨accepted f .rdtsc as, accepted f .ttt as, (as.map (Arrival.tally f)).sum⟩

/-- What the lines of bytes bring. -/
def ofBytes (f : Frequency) (bytes : List UInt8) : Contribution :=
  ofArrivals f (Arrival.ofByteLines (Text.byteLines bytes))

theorem ofArrivals_append (f : Frequency) (as bs : List Arrival) :
    ofArrivals f (as ++ bs) = ofArrivals f as + ofArrivals f bs := by
  show Contribution.mk _ _ _ = Contribution.mk _ _ _
  rw [accepted, accepted, List.filterMap_append, List.filterMap_append, List.map_append,
    List.sum_append]
  rfl

/-- **Bytes that leave no line open bring what they bring alone.** -/
theorem ofBytes_append (f : Frequency) {a : List UInt8} (h : EndsLine a) (b : List UInt8) :
    ofBytes f (a ++ b) = ofBytes f a + ofBytes f b := by
  have hcut : Text.byteLines (a ++ b) = Text.byteLines a ++ Text.byteLines b :=
    Text.cutAfter_append (closed_iff_endsLine.mpr h) b
  rw [ofBytes, hcut, Arrival.ofByteLines, List.map_append]
  exact ofArrivals_append f _ _

/-! ### One line among others -/

theorem eq_lineFeed_of_cons {b : UInt8} {rest : List UInt8}
    (h : b :: rest = [] ∨ (b :: rest).head? = some lineFeed) : b = lineFeed := by
  rcases h with h | h
  · cases h
  · exact Option.some.inj h

/-- Bytes without a line feed, and a line feed if there is one behind them, are one line; without either
they are none. -/
theorem byteLines_of_line {line after : List UInt8} (hline : lineFeed ∉ line)
    (hafter : after = [] ∨ after.head? = some lineFeed) :
    Text.byteLines (line ++ after.take 1) =
      if line ++ after.take 1 = [] then [] else [line ++ after.take 1] := by
  have hopen := Text.open_of_not_mem hline
  cases after with
  | nil =>
    rw [List.take_nil, List.append_nil]
    split
    · rename_i hnil
      rw [hnil]
      rfl
    · rename_i hne
      exact Text.cutAfter_of_open hne hopen
  | cons b rest =>
    obtain rfl := eq_lineFeed_of_cons hafter
    have hfed : line ++ (lineFeed :: rest).take 1 = line ++ [lineFeed] := rfl
    rw [hfed, if_neg (List.append_ne_nil_of_right_ne_nil line (List.cons_ne_nil lineFeed []))]
    exact Text.cutAfter_concat_of_ends hopen (beq_self_eq_true lineFeed)

theorem endsLine_or_drop_eq_nil {after : List UInt8}
    (hafter : after = [] ∨ after.head? = some lineFeed) (line : List UInt8) :
    EndsLine (line ++ after.take 1) ∨ after.drop 1 = [] := by
  cases after with
  | nil => exact Or.inr rfl
  | cons b rest =>
    obtain rfl := eq_lineFeed_of_cons hafter
    left
    right
    exact List.getLast?_concat

/-- **What stands before a line and behind it brings what it brings without the line.** -/
theorem ofBytes_around (f : Frequency) {before after : List UInt8} (hbefore : EndsLine before)
    (hafter : after = [] ∨ after.head? = some lineFeed) (line : List UInt8) :
    ofBytes f (before ++ line ++ after) =
      ofBytes f before + (ofBytes f (line ++ after.take 1) + ofBytes f (after.drop 1)) := by
  have hsplit : line ++ after = line ++ after.take 1 ++ after.drop 1 := by
    rw [List.append_assoc, List.take_append_drop]
  rw [List.append_assoc, ofBytes_append f hbefore, hsplit]
  rcases endsLine_or_drop_eq_nil hafter line with hends | hnil
  · rw [ofBytes_append f hends]
  · -- The line is the last one: nothing stands behind it, and nothing brings nothing.
    rw [hnil, List.append_nil]
    congr 1
    show _ = Contribution.mk _ _ _
    rw [show ofBytes f [] = ⟨[], [], 0⟩ from rfl, List.append_nil, List.append_nil, add_zero]

end Contribution

/-! ## Lines that are counted -/

theorem Arrival.lines_tally_line (f : Frequency) (text : List Char) :
    (Arrival.tally f (.line text)).lines = 1 := by
  unfold Arrival.tally
  cases Arrival.read f (.line text) with
  | ok e =>
    obtain ⟨time, kind, tag, value⟩ := e
    cases kind <;> rfl
  | error d => cases d <;> rfl

theorem Contribution.lines_ofByteLines (f : Frequency) (lines : List (List UInt8)) :
    (ofArrivals f (Arrival.ofByteLines lines)).tally.lines = UInt64.ofNat lines.length := by
  induction lines with
  | nil => rfl
  | cons line lines ih =>
    have hcons : ofArrivals f (Arrival.ofByteLines (line :: lines)) =
        ofArrivals f [.line (Text.Utf8.decodeLossy line)] +
          ofArrivals f (Arrival.ofByteLines lines) := ofArrivals_append f [_] _
    have hone : (ofArrivals f [.line (Text.Utf8.decodeLossy line)]).tally.lines = 1 := by
      show (Arrival.tally f (.line _) + 0).lines = 1
      rw [add_zero, Arrival.lines_tally_line]
    rw [hcons, tally_add, Tally.add_def]
    show (ofArrivals f [_]).tally.lines + (ofArrivals f _).tally.lines = _
    rw [hone, ih, List.length_cons, Nat.add_comm, UInt64.ofNat_add]
    rfl

/-- The lines of bytes: as many as there are line feeds, and one more that lacks it. -/
theorem length_byteLines (bytes : List UInt8) :
    (Text.byteLines bytes).length =
      bytes.count lineFeed + if EndsLine bytes then 0 else 1 := by
  have hlength : (Text.byteLines bytes).length =
      bytes.countP (· == lineFeed) + if Text.Closed (· == lineFeed) bytes then 0 else 1 :=
    Text.length_cutAfter bytes
  rw [hlength, List.count]
  simp only [closed_iff_endsLine]

/-! ## Stores -/

namespace Store

/-- The store with what it gains. -/
def gain (s : Store) (c : Contribution) : Store :=
  ⟨s.frequency, s.rdtsc ++ c.rdtsc.toArray, s.ttt ++ c.ttt.toArray, s.tally + c.tally⟩

theorem gain_add (s : Store) (c d : Contribution) : s.gain (c + d) = (s.gain c).gain d := by
  show Store.mk _ _ _ _ = Store.mk _ _ _ _
  rw [mk.injEq]
  refine ⟨rfl, ?_, ?_, (add_assoc s.tally c.tally d.tally).symm⟩
  · show s.rdtsc ++ (c.rdtsc ++ d.rdtsc).toArray = s.rdtsc ++ c.rdtsc.toArray ++ d.rdtsc.toArray
    rw [← List.append_toArray, Array.append_assoc]
  · show s.ttt ++ (c.ttt ++ d.ttt).toArray = s.ttt ++ c.ttt.toArray ++ d.ttt.toArray
    rw [← List.append_toArray, Array.append_assoc]

theorem gain_frequency (s : Store) (c : Contribution) : (s.gain c).frequency = s.frequency := rfl

theorem takeAll_frequency (s : Store) (as : List Arrival) :
    (s.takeAll as).frequency = s.frequency := by
  induction as generalizing s with
  | nil => rfl
  | cons a as ih =>
    show ((s.take a).takeAll as).frequency = s.frequency
    rw [ih, take_frequency]

/-- Arrivals, taken in turn, are their contribution gained. -/
theorem takeAll_eq_gain (s : Store) (as : List Arrival) :
    s.takeAll as = s.gain (Contribution.ofArrivals s.frequency as) := by
  have hrdtsc : (s.takeAll as).rdtsc.toList = s.rdtsc.toList ++ accepted s.frequency .rdtsc as :=
    takeAll_gathered s as .rdtsc
  have httt : (s.takeAll as).ttt.toList = s.ttt.toList ++ accepted s.frequency .ttt as :=
    takeAll_gathered s as .ttt
  have hfrequency := takeAll_frequency s as
  have htally := takeAll_tally s as
  generalize s.takeAll as = s' at hrdtsc httt hfrequency htally
  obtain ⟨frequency, rdtsc, ttt, tally⟩ := s'
  rw [gain, mk.injEq]
  refine ⟨hfrequency, ?_, ?_, htally⟩
  · apply Array.toList_inj.mp
    rw [Array.toList_append]
    exact hrdtsc
  · apply Array.toList_inj.mp
    rw [Array.toList_append]
    exact httt

/-- **Reading a source is gaining what its bytes bring**, whatever the store holds. -/
theorem addBytes_eq_gain (s : Store) (bytes : List UInt8) :
    s.addBytes bytes =
      (s.gain (Contribution.ofBytes s.frequency bytes),
        (Contribution.ofBytes s.frequency bytes).tally) := by
  have hstore : s.addByteLines (Text.byteLines bytes) =
      s.gain (Contribution.ofBytes s.frequency bytes) := by
    rw [addByteLines_eq_takeAll, takeAll_eq_gain]
    rfl
  rw [addBytes, hstore, Prod.mk.injEq]
  exact ⟨rfl, Tally.add_sub_cancel s.tally _⟩

/-- Reads sources one after another, and gives the tally of each. -/
def addEach (s : Store) : List (List UInt8) → Store × List Tally
  | [] => (s, [])
  | bytes :: rest =>
    let (s', tally) := s.addBytes bytes
    let (s'', tallies) := s'.addEach rest
    (s'', tally :: tallies)

theorem addEach_cons (s : Store) (bytes : List UInt8) (rest : List (List UInt8)) :
    s.addEach (bytes :: rest) =
      (((s.addBytes bytes).1.addEach rest).1,
        (s.addBytes bytes).2 :: ((s.addBytes bytes).1.addEach rest).2) := rfl

/-- **The counters of a store have grown by those of its sources.** -/
theorem tally_addEach (s : Store) (sources : List (List UInt8)) :
    (s.addEach sources).1.tally = s.tally + (s.addEach sources).2.sum := by
  induction sources generalizing s with
  | nil => exact (add_zero s.tally).symm
  | cons bytes rest ih =>
    rw [addEach_cons, ih, List.sum_cons, ← add_assoc, addBytes_eq_gain]
    rfl

/-- **Reading in parts is reading the whole, and a line that is torn costs itself.** Where the first part
leaves no line open, the two parts fill the store as the whole does, and count together what it counts;
the counters of a store are the sum of those of its sources. A source counts one line for each line feed,
and one for what follows the last. Whatever bytes without a line feed stand in one line, what the lines
before and behind it bring is the same. -/
theorem addBytes_by_parts (s : Store) :
    (∀ a b : List UInt8, EndsLine a →
      ((s.addBytes a).1.addBytes b).1 = (s.addBytes (a ++ b)).1 ∧
      (s.addBytes (a ++ b)).2 = (s.addBytes a).2 + ((s.addBytes a).1.addBytes b).2) ∧
    (∀ sources : List (List UInt8),
      (s.addEach sources).1.tally = s.tally + (s.addEach sources).2.sum) ∧
    (∀ bytes : List UInt8, (s.addBytes bytes).2.lines =
      UInt64.ofNat (bytes.count lineFeed +
        if bytes = [] ∨ bytes.getLast? = some lineFeed then 0 else 1)) ∧
    ∀ before line after : List UInt8, EndsLine before →
      (after = [] ∨ after.head? = some lineFeed) → lineFeed ∉ line →
      let torn := line ++ after.take 1
      let whole := Contribution.ofBytes s.frequency before +
        (Contribution.ofBytes s.frequency torn + Contribution.ofBytes s.frequency (after.drop 1))
      s.addBytes (before ++ line ++ after) = (s.gain whole, whole.tally) ∧
        Text.byteLines torn = if torn = [] then [] else [torn] := by
  refine ⟨?_, tally_addEach s, ?_, ?_⟩
  · intro a b ha
    have hparts := Contribution.ofBytes_append s.frequency ha b
    simp only [addBytes_eq_gain, gain_frequency, hparts, gain_add, Contribution.tally_add, and_self]
  · intro bytes
    rw [addBytes_eq_gain]
    show (Contribution.ofArrivals s.frequency _).tally.lines = _
    rw [Contribution.lines_ofByteLines, length_byteLines]
    rfl
  · intro before line after hbefore hafter hline
    refine ⟨?_, Contribution.byteLines_of_line hline hafter⟩
    rw [addBytes_eq_gain, Contribution.ofBytes_around s.frequency hbefore hafter line]

/-- A reading, with its line feed. -/
def firstReading : List UInt8 := "10:00:00 TTT in 1\n".toUTF8.toList

/-- What is left of a line, and is no UTF-8. -/
def tornLine : List UInt8 := [0x31, 0xFF, 0xFE]

/-- The end of a line, and a reading without one. -/
def lastReading : List UInt8 := "\n10:00:01 TTT out 5".toUTF8.toList

theorem addBytes_by_parts_tornLine :
    EndsLine firstReading ∧ lastReading.head? = some lineFeed ∧ lineFeed ∉ tornLine ∧
      ((empty .default).addBytes (firstReading ++ (tornLine ++ lastReading))).2 =
        ((empty .default).addBytes firstReading).2 +
          (((empty .default).addBytes firstReading).1.addBytes (tornLine ++ lastReading)).2 ∧
      ((empty .default).addBytes (firstReading ++ tornLine ++ lastReading)).1 =
        (empty .default).gain (Contribution.ofBytes .default firstReading +
          (Contribution.ofBytes .default (tornLine ++ lastReading.take 1) +
            Contribution.ofBytes .default (lastReading.drop 1))) ∧
      Text.byteLines (tornLine ++ lastReading.take 1) = [tornLine ++ [lineFeed]] := by
  have hfirst : EndsLine firstReading := by decide +kernel
  have hlast : lastReading.head? = some lineFeed := by decide +kernel
  have htorn : lineFeed ∉ tornLine := by decide
  obtain ⟨hparts, _, _, haround⟩ := addBytes_by_parts (empty .default)
  obtain ⟨hwhole, hline⟩ := haround firstReading tornLine lastReading hfirst (Or.inr hlast) htorn
  refine ⟨hfirst, hlast, htorn, (hparts firstReading _ hfirst).2, ?_, ?_⟩
  · rw [hwhole]
    rfl
  · rw [hline]
    decide +kernel

/-! ## Sources read as text -/

open Text.Utf8 (decodeLossy)

/-- Adds the lines of a text, and gives the tally of this text alone. -/
def addText (s : Store) (text : List Char) : Store × Tally :=
  let s' := (Text.lines text).foldl (fun s line => (s.addLine line).1) s
  (s', s'.tally - s.tally)

/-- The lines of bytes are handed on decoded. -/
theorem addByteLines_eq_foldl_map (s : Store) (lines : List (List UInt8)) :
    s.addByteLines lines =
      (lines.map decodeLossy).foldl (fun s line => (s.addLine line).1) s := by
  rw [addByteLines, List.foldl_map]

theorem addBytes_eq_addText (s : Store) (bytes : List UInt8) :
    s.addBytes bytes = s.addText (decodeLossy bytes) := by
  rw [addBytes, addText, addByteLines_eq_foldl_map, Text.Utf8.map_decodeLossy_byteLines]

/-- **It does not matter whether a source is decoded or cut first.** The lines that are read are the lines
of the decoded source. A line feed among the bytes is a line feed in the text, what stands before it and
what stands behind it being decoded apart, and no other line feeds are in the text. So a store and its
counters are the same either way. -/
theorem addBytes_decoded_first (bytes : List UInt8) :
    (Text.byteLines bytes).map decodeLossy = Text.lines (decodeLossy bytes) ∧
    (∀ before after : List UInt8, decodeLossy (before ++ lineFeed :: after) =
      decodeLossy before ++ '\n' :: decodeLossy after) ∧
    (decodeLossy bytes).count '\n' = bytes.count lineFeed ∧
    ∀ s : Store, s.addBytes bytes = s.addText (decodeLossy bytes) := by
  refine ⟨Text.Utf8.map_decodeLossy_byteLines bytes, ?_,
    Text.Utf8.count_lineFeed_decodeLossy bytes, ?_⟩
  · intro before after
    exact Text.Utf8.decodeLossy_append_lineFeed before after
  · intro s
    exact addBytes_eq_addText s bytes

/-- A first byte of three, a line feed, the rest of the three and one more, another line feed. -/
example : decodeLossy [0xE2, 0x0A, 0x82, 0xAC, 0x0A] =
    ['\uFFFD', '\n', '\uFFFD', '\uFFFD', '\n'] := by decide +kernel

end Store

end LatencyLog
