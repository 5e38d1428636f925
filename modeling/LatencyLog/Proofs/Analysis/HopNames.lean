import LatencyLog.Proofs.Analysis.Sufficiency
import LatencyLog.Proofs.LogLine.Verdict
import LatencyLog.Proofs.Store.Accounts
import LatencyLog.Proofs.Store.FailedFiles

/-!
# Hops by their names

A hop is named by its ends with an arrow between them, and a tag may have an arrow in it, so two hops can
have one name. A topology may hold both, but not two of them have transits. A transit is at an event at the
destination, an event that was a line has a tag without a space, and behind the last space of a name nothing
is left but the destination (`ofName_name`).

A source is not known to be without a space, as the event before may have been at the destination too. Nor
is the destination, if its events did not come from lines.
-/

namespace LatencyLog

/-! ## Names -/

/-- The hop of a name, its destination being what is behind the last space. -/
def Hop.ofName (name : String) : Hop where
  source := String.ofList ((name.toList.reverse.dropWhile (· ≠ ' ')).drop 4).reverse
  destination := String.ofList (name.toList.reverse.takeWhile (· ≠ ' ')).reverse

/-- **A hop is known by its name if there is no space in its destination.** -/
theorem Hop.ofName_name {hop : Hop} (h : ' ' ∉ hop.destination.toList) : ofName hop.name = hop := by
  -- Read backwards a name begins with the destination, and the first space is that of the arrow.
  have hname : hop.name.toList.reverse =
      hop.destination.toList.reverse ++ " >- ".toList ++ hop.source.toList.reverse := by
    simp [name]
  have hdestination : ∀ c ∈ hop.destination.toList.reverse, decide (c ≠ ' ') = true := by
    intro c hc
    refine decide_eq_true ?_
    rintro rfl
    exact h (List.mem_reverse.mp hc)
  have hstops : Text.Stops (fun c => decide (c ≠ ' ')) (" >- ".toList ++ hop.source.toList.reverse) :=
    Text.stops_cons.mpr (by decide)
  obtain ⟨source, destination⟩ := hop
  rw [ofName, hname, List.append_assoc, Text.takeWhile_append hdestination hstops,
    Text.dropWhile_append hdestination hstops]
  simp

/-! ## Tags of lines -/

theorem not_mem_tag_of_ofLine {f : Frequency} {line : List Char} {e : Entry}
    (h : Entry.ofLine f line = .ok e) : ' ' ∉ e.tag.toList := by
  obtain ⟨c, _, _, _, _, htag, _⟩ := Columns.exists_parts_of_ofLine h
  rw [htag, String.toList_ofList]
  exact c.spaceless c.tag (by simp)

theorem isLine_of_mem_arrivals {steps : List Step} (h : ∀ st ∈ steps, st.isPush = false) {a : Arrival}
    (ha : a ∈ arrivals steps) : a.isLine = true := by
  have hcount : pushCount (arrivals steps) = 0 := by
    rw [pushCount_arrivals, List.countP_eq_zero]
    exact fun st hst => Bool.eq_false_iff.mp (h st hst)
  simpa using List.countP_eq_zero.mp hcount a ha

/-- **There is no space in the tag of a record that was a line.** -/
theorem not_mem_tag_of_mem_stream {f : Frequency} {steps : List Step}
    (h : ∀ st ∈ steps, st.isPush = false) (kind : EventKind) {r : Record}
    (hr : r ∈ ((Store.empty f).run steps).finish.stream kind) : ' ' ∉ r.tag.toList := by
  rw [Store.stream_run_empty] at hr
  obtain ⟨a, ha, hrecord⟩ := List.mem_filterMap.mp (RecordSet.mem_of_mem_normalize hr)
  have hline := isLine_of_mem_arrivals h ha
  cases a with
  | entry e => cases hline
  | line text =>
    rw [Arrival.record?, Arrival.read] at hrecord
    cases he : Entry.ofLine f text with
    | error d =>
      rw [he] at hrecord
      cases hrecord
    | ok e =>
      rw [he] at hrecord
      obtain ⟨_, hrecord⟩ := Option.ite_none_right_eq_some.mp hrecord
      cases hrecord
      exact not_mem_tag_of_ofLine he

/-! ## Reports -/

/-- There is something in the series, if too little to be summarized. -/
def Outcome.HasData : Outcome → Prop
  | .summarized _ => True
  | .insufficient usable => 0 < usable

theorem ne_nil_of_hasData {transits : List Point} (h : (Analysis.hopOutcome transits).HasData) :
    transits ≠ [] := by
  rintro rfl
  exact absurd h (Nat.lt_irrefl 0)

theorem Hop.exists_of_mem_transits {hop : Hop} {stream : List Record} {p : Point}
    (hp : p ∈ hop.transits stream) : ∃ r ∈ stream, r.tag = hop.destination := by
  rw [transits_eq_eachAfter] at hp
  obtain ⟨earlier, event, later, rfl, hcompleted⟩ := mem_eachAfter_iff.mp hp
  obtain ⟨_, _, htag, _⟩ := completed?_eq_some_iff.mp hcompleted
  exact ⟨event, by simp, htag⟩

theorem exists_of_hasData {config : Config} {set : RecordSet} {report : HopReport}
    (h : report ∈ (analyze config set).hops) (hdata : report.outcome.HasData) :
    ∃ r ∈ set.ttt, r.tag = report.hop.destination := by
  rw [Analysis.outcome_of_mem_hopReports h] at hdata
  obtain ⟨p, hp⟩ := List.exists_mem_of_ne_nil _ (ne_nil_of_hasData hdata)
  exact Hop.exists_of_mem_transits hp

/-- The records came from lines, in whatever way these reached a store. -/
def RecordSet.OfLines (set : RecordSet) : Prop :=
  ∃ (f : Frequency) (steps : List Step), (∀ st ∈ steps, st.isPush = false) ∧
    set = ((Store.empty f).run steps).finish

theorem RecordSet.ofLines_of_ingest {config : Config} {fs : FileSystem} {paths : List String}
    {set : RecordSet} (h : ingest config fs paths = .ok set) : set.OfLines := by
  obtain ⟨_, rfl⟩ := Store.result_readFiles_eq_ok_iff.mp h
  refine ⟨config.frequency, paths.map (Step.file fs), ?_, rfl⟩
  intro st hst
  obtain ⟨p, _, rfl⟩ := List.mem_map.mp hst
  rfl

theorem ofName_name_of_hasData {config : Config} {set : RecordSet} (hset : set.OfLines)
    {report : HopReport} (h : report ∈ (analyze config set).hops) (hdata : report.outcome.HasData) :
    Hop.ofName report.hop.name = report.hop := by
  obtain ⟨f, steps, hsteps, rfl⟩ := hset
  obtain ⟨r, hr, htag⟩ := exists_of_hasData h hdata
  exact Hop.ofName_name (htag ▸ not_mem_tag_of_mem_stream hsteps .ttt hr)

/-- **Of the hops of a report that have data, each is known by its name.** The records have to come from
lines, as those of log files do. Whatever tags there are in a topology, the hop of such a name is what can
be read in it, so there is no other of that name. -/
theorem hops_known_by_name :
    (∀ (config : Config) (fs : FileSystem) (paths : List String) (set : RecordSet),
      ingest config fs paths = .ok set → set.OfLines) ∧
    ∀ (config : Config) (set : RecordSet), set.OfLines →
      (∀ report ∈ (analyze config set).hops, report.outcome.HasData →
        Hop.ofName report.hop.name = report.hop) ∧
      ∀ report ∈ (analyze config set).hops, ∀ report' ∈ (analyze config set).hops,
        report.outcome.HasData → report'.outcome.HasData → report.hop.name = report'.hop.name →
          report.hop = report'.hop ∧ report = report' := by
  refine ⟨fun config fs paths set => RecordSet.ofLines_of_ingest, ?_⟩
  intro config set hset
  refine ⟨fun report h hdata => ofName_name_of_hasData hset h hdata, ?_⟩
  intro report h report' h' hdata hdata' hname
  have hhop : report.hop = report'.hop := by
    rw [← ofName_name_of_hasData hset h hdata, hname, ofName_name_of_hasData hset h' hdata']
  have houtcome : report.outcome = report'.outcome := by
    rw [Analysis.outcome_of_mem_hopReports h, Analysis.outcome_of_mem_hopReports h', hhop]
  obtain ⟨hop, outcome⟩ := report
  obtain ⟨hop', outcome'⟩ := report'
  obtain rfl : hop = hop' := hhop
  obtain rfl : outcome = outcome' := houtcome
  exact ⟨rfl, rfl⟩

/-- Two hops of one name. -/
def arrowsInTags : Config := ⟨.default, [⟨"a -> b", "c"⟩, ⟨"a", "b -> c"⟩]⟩

/-- Two events at the destination of one of them. -/
def twoArrivals : List Step := [.line "10:00:00 TTT c 1".toList, .line "10:00:01 TTT c 3".toList]

theorem hops_known_by_name_arrowsInTags :
    (arrowsInTags.topology.map Hop.name = ["a -> b -> c", "a -> b -> c"]) ∧
    (analyze arrowsInTags ((Store.empty .default).run twoArrivals).finish).hops =
      [⟨⟨"a -> b", "c"⟩, .insufficient 1⟩, ⟨⟨"a", "b -> c"⟩, .insufficient 0⟩] ∧
    Hop.ofName "a -> b -> c" = ⟨"a -> b", "c"⟩ ∧
    ∀ report ∈ (analyze arrowsInTags ((Store.empty .default).run twoArrivals).finish).hops,
      report.outcome.HasData → report.hop.name = "a -> b -> c" → report.hop = ⟨"a -> b", "c"⟩ := by
  have hset : ((Store.empty .default).run twoArrivals).finish.OfLines :=
    ⟨.default, twoArrivals, by decide, rfl⟩
  have haccepted : accepted .default .ttt (arrivals twoArrivals) =
      [⟨⟨10, 0, 0, 0, by decide, by decide, by decide, by decide⟩, "c", .ofNat 1⟩,
        ⟨⟨10, 0, 1, 0, by decide, by decide, by decide, by decide⟩, "c", .ofNat 3⟩] := by decide +kernel
  have hstream : ((Store.empty .default).run twoArrivals).finish.ttt =
      accepted .default .ttt (arrivals twoArrivals) := by
    refine (Store.stream_run_empty .default twoArrivals .ttt).trans ?_
    rw [haccepted]
    exact RecordSet.normalize_of_pairwise (by decide +kernel) (by decide +kernel)
  have hhops : (analyze arrowsInTags ((Store.empty .default).run twoArrivals).finish).hops =
      [⟨⟨"a -> b", "c"⟩, .insufficient 1⟩, ⟨⟨"a", "b -> c"⟩, .insufficient 0⟩] := by
    show Analysis.hopReports _ _ = _
    rw [Analysis.hopReports_eq_map, hstream, haccepted]
    decide +kernel
  obtain ⟨hofName, hknown⟩ := hops_known_by_name.2 arrowsInTags _ hset
  have hmem : (⟨⟨"a -> b", "c"⟩, .insufficient 1⟩ : HopReport) ∈
      (analyze arrowsInTags ((Store.empty .default).run twoArrivals).finish).hops := by
    rw [hhops]
    exact List.mem_cons_self ..
  have hname : (⟨"a -> b", "c"⟩ : Hop).name = "a -> b -> c" := by decide
  have hread := hofName _ hmem Nat.one_pos
  rw [hname] at hread
  refine ⟨by decide, hhops, hread, ?_⟩
  intro report hreport hdata hreportName
  exact (hknown report hreport _ hmem hdata Nat.one_pos (hreportName.trans hname.symm)).1

end LatencyLog
