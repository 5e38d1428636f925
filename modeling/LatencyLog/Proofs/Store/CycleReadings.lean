import LatencyLog.Proofs.Binary64.Quotients
import LatencyLog.Proofs.LogLine.Verdict
import LatencyLog.Proofs.Store.Instants

/-!
# Durations in cycles are told apart

A store looks for repetitions when cycles are nanoseconds already, so what it compares has been divided and
rounded. Two durations of one time and one tag could be lost in one another there, if their cycles were
different and their nanoseconds were not. Up to 2^51 cycles that does not happen at any frequency, great or
small: a store that was given both keeps both, whatever else it was given (`cycles_told_apart`).

The one exception is a frequency so small that both durations are one infinity. The record that is kept is
the one that the line makes, except for the sign of a zero, where an earlier line may have had the other one.
-/

namespace LatencyLog

variable {n n' : Int} {x x' : Binary64}

theorem Frequency.nanosOfCycles_eq_iff (f : Frequency) (hx : x.Whole n) (hx' : x'.Whole n') (hne : n ≠ n')
    (hn : n.natAbs ≤ 2 ^ 51) (hn' : n'.natAbs ≤ 2 ^ 51) :
    (f.nanosOfCycles x).eq (f.nanosOfCycles x') = true ↔
      ∃ s, f.nanosOfCycles x = .infinity s ∧ f.nanosOfCycles x' = .infinity s := by
  obtain ⟨m, hghz, hm⟩ := Binary64.exists_of_isUsable f.usable
  simp only [Frequency.nanosOfCycles, hghz]
  exact hx.div_eq_div_iff hx' hm hne hn hn'

theorem Frequency.isNan_nanosOfCycles (f : Frequency) (hx : x.Whole n) :
    (f.nanosOfCycles x).isNan = false := by
  obtain ⟨m, hghz, hm⟩ := Binary64.exists_of_isUsable f.usable
  rw [Frequency.nanosOfCycles, hghz]
  exact hx.isNan_div hm

/-- Some cycles take some time. -/
theorem Frequency.place?_nanosOfCycles_ne (f : Frequency) (hx : x.Whole n) (hne : n ≠ 0)
    (hn : n.natAbs ≤ 2 ^ 51) : (f.nanosOfCycles x).place? ≠ some 0 := by
  obtain ⟨m, hghz, hm⟩ := Binary64.exists_of_isUsable f.usable
  rw [Frequency.nanosOfCycles, hghz]
  exact hx.place?_div_ne hm hne hn

/-- **Durations of different cycles are both kept.** Two lines log different integers of at most 2^51 cycles,
with one time and one tag. Their values are one only where both are one infinity; and where they are not, a
store that both lines reach keeps a record of each, which for other than 0 cycles is the record that the line
makes. -/
theorem cycles_told_apart (f : Frequency) {line line' : List Char} {time : TimeOfDay} {tag : String}
    {n n' : Int} (hline : LogsInteger line .rdtsc time tag n)
    (hline' : LogsInteger line' .rdtsc time tag n') (hne : n ≠ n') (hn : n.natAbs ≤ 2 ^ 51)
    (hn' : n'.natAbs ≤ 2 ^ 51) :
    ∃ x x' : Binary64, Entry.ofLine f line = .ok ⟨time, .rdtsc, tag, x⟩ ∧
      Entry.ofLine f line' = .ok ⟨time, .rdtsc, tag, x'⟩ ∧
      (x.eq x' = true ↔ ∃ s, x = .infinity s ∧ x' = .infinity s) ∧
      ((¬ ∃ s, x = .infinity s ∧ x' = .infinity s) →
        ∀ steps, Arrival.line line ∈ arrivals steps → Arrival.line line' ∈ arrivals steps →
          ∃ r ∈ ((Store.empty f).run steps).finish.rdtsc,
            ∃ r' ∈ ((Store.empty f).run steps).finish.rdtsc,
              r.Repeats ⟨time, tag, x⟩ ∧ r'.Repeats ⟨time, tag, x'⟩ ∧ ¬ r.Repeats r' ∧
              (n ≠ 0 → r = ⟨time, tag, x⟩) ∧ (n' ≠ 0 → r' = ⟨time, tag, x'⟩)) := by
  have hbound : (2 : Nat) ^ 51 ≤ 2 ^ 53 := by decide
  obtain ⟨c, hc, he⟩ := hline.exists_ofLine (Nat.le_trans hn hbound) f
  obtain ⟨c', hc', he'⟩ := hline'.exists_ofLine (Nat.le_trans hn' hbound) f
  have hvalues := f.nanosOfCycles_eq_iff hc hc' hne hn hn'
  refine ⟨f.nanosOfCycles c, f.nanosOfCycles c', he, he', hvalues, fun hinfinite steps hmem hmem' => ?_⟩
  obtain ⟨r, hr, hrepeats⟩ := Stamp.exists_mem_stream_of_line hmem he
  obtain ⟨r', hr', hrepeats'⟩ := Stamp.exists_mem_stream_of_line hmem' he'
  refine ⟨r, hr, r', hr', hrepeats, hrepeats', ?_, ?_, ?_⟩
  · intro hsame
    obtain ⟨_, _, heq | ⟨hnan, _⟩⟩ := (hrepeats.symm.trans hsame).trans hrepeats'
    · exact hinfinite (hvalues.mp heq)
    · rw [Entry.record, Fields.convert, f.isNan_nanosOfCycles hc] at hnan
      cases hnan
  · intro hzero
    exact hrepeats.eq_of_place?_ne (f.place?_nanosOfCycles_ne hc hzero hn)
  · intro hzero
    exact hrepeats'.eq_of_place?_ne (f.place?_nanosOfCycles_ne hc' hzero hn')

/-! ## Durations about 2^49 nanoseconds -/

/-- Cycles that are just less than 2^49 nanoseconds at 2.6 GHz. -/
def belowPower : List Char := "10:00:00.5 RDTSC parse 1463669878895411".toList

/-- One cycle more, and more nanoseconds than that. -/
def abovePower : List Char := "10:00:00.5 RDTSC parse 1463669878895412".toList

def halfSecondPastTen : TimeOfDay := (TimeOfDay.read? "10:00:00.5".toList).get (by decide +kernel)

def aboutPower : List Step := [.line abovePower, .line belowPower, .line abovePower]

theorem cycles_told_apart_aboutPower :
    LogsInteger belowPower .rdtsc halfSecondPastTen "parse" 1463669878895411 ∧
      LogsInteger abovePower .rdtsc halfSecondPastTen "parse" 1463669878895412 ∧
      ∃ x x' : Binary64,
        Entry.ofLine .default belowPower = .ok ⟨halfSecondPastTen, .rdtsc, "parse", x⟩ ∧
        Entry.ofLine .default abovePower = .ok ⟨halfSecondPastTen, .rdtsc, "parse", x'⟩ ∧
        ¬ x.eq x' = true ∧
        ⟨halfSecondPastTen, "parse", x⟩ ∈ ((Store.empty .default).run aboutPower).finish.rdtsc ∧
        ⟨halfSecondPastTen, "parse", x'⟩ ∈ ((Store.empty .default).run aboutPower).finish.rdtsc := by
  have hbelow : LogsInteger belowPower .rdtsc halfSecondPastTen "parse" 1463669878895411 :=
    ⟨⟨"10:00:00.5".toList, "RDTSC".toList, "parse".toList, "1463669878895411".toList, by decide⟩,
      by decide, by decide +kernel, rfl, by decide, by decide +kernel⟩
  have habove : LogsInteger abovePower .rdtsc halfSecondPastTen "parse" 1463669878895412 :=
    ⟨⟨"10:00:00.5".toList, "RDTSC".toList, "parse".toList, "1463669878895412".toList, by decide⟩,
      by decide, by decide +kernel, rfl, by decide, by decide +kernel⟩
  obtain ⟨x, x', he, he', hvalues, hkept⟩ :=
    cycles_told_apart .default hbelow habove (by decide) (by decide) (by decide)
  have hfinite : (Entry.ofLine .default belowPower).toOption.map (fun e => e.value.isFinite) = some true := by
    decide +kernel
  have hinfinite : ¬ ∃ s, x = .infinity s ∧ x' = .infinity s := by
    rintro ⟨s, rfl, _⟩
    rw [he] at hfinite
    cases hfinite
  obtain ⟨r, hr, r', hr', _, _, _, hself, hself'⟩ :=
    hkept hinfinite aboutPower (List.mem_cons_of_mem _ (List.mem_cons_self ..)) (List.mem_cons_self ..)
  refine ⟨hbelow, habove, x, x', he, he', fun heq => hinfinite (hvalues.mp heq), ?_, ?_⟩
  · exact hself (by decide) ▸ hr
  · exact hself' (by decide) ▸ hr'

end LatencyLog
