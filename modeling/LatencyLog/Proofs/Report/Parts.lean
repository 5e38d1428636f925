import LatencyLog.Proofs.Analysis.Sufficiency
import LatencyLog.Proofs.FirstOccurrence
import LatencyLog.Proofs.Report.ChartTexts
import LatencyLog.Report.Text

/-!
# The two parts of a report

Below its head the text of a report has two parts, and each says one thing. It is a notice, or it is a block
for each series (`RdtscPart`, `HopPart`). Notices are decided by counting records, and the blocks come from
lists that are made elsewhere: tags are collected, and hops are not even looked at where nothing was read. That
a part is never empty and never both is therefore nothing that the text could see to by itself
(`rdtscPart_of_tags`, `hopPart_of_hops`); it is the analysis that makes lists which agree with the counts.

A block shows by its first line whether its series was summarized (`IsBlock.status_eq`). So does an entry of
the JSON form, by its status (`IsEntry`), and the entries are those of the blocks, one for one and in their
order (`text_parts`).
-/

namespace LatencyLog

namespace Report

/-! ## What can be said -/

/-- The block of a series: a result if it was summarized, a note otherwise. -/
inductive IsBlock (kind meanLabel name : String) : Outcome → String → Prop where
  | result (s : Summary) (mean p50 p90 p99 p999 max : String) :
    IsBlock kind meanLabel name (.summarized s)
      ("\n" ++ kind ++ " " ++ name ++ "\n" ++
        ("   Observations: " ++ toString s.count ++ ", " ++ meanLabel ++ ": " ++ mean ++ " ns (" ++
          s.unit.name ++ ")\n" ++ "   P50: " ++ p50 ++ "  P90: " ++ p90 ++ "  P99: " ++ p99 ++
          "  P99.9: " ++ p999 ++ "  Max: " ++ max ++ "\n"))
  | note (usable : Nat) :
    IsBlock kind meanLabel name (.insufficient usable)
      ("\n" ++ kind ++ " " ++ name ++ "\n" ++
        ("   Not enough data points to plot (" ++ toString usable ++ " usable).\n"))

/-- The RDTSC part for these records, in which these series have their blocks. -/
inductive RdtscPart (records : List Record) : List ChartSeries → String → Prop where
  | notice (hnone : records = []) : RdtscPart records [] "\nNo RDTSC data to report.\n"
  | blocks {series : List ChartSeries} {texts : List String} (hsome : records ≠ [])
      (htags : series.map ChartSeries.name = (records.map Record.tag).eraseDups)
      (htexts : List.Forall₂ (fun s => IsBlock "RDTSC" "Mean Latency" s.name s.outcome) series texts) :
      RdtscPart records series (String.join texts)

/-- The hop part for these records, in which these series have their blocks. -/
inductive HopPart (topology : Topology) (records : List Record) : List ChartSeries → String → Prop where
  | noReadings (hnone : records = []) : HopPart topology records [] "\nNo TTT data to report.\n"
  | noHops (hsome : records ≠ []) (hempty : topology = []) :
      HopPart topology records [] "\nNo hops configured.\n"
  | blocks {series : List ChartSeries} {texts : List String} (hsome : records ≠ []) (hne : topology ≠ [])
      (hhops : series.map ChartSeries.hop = topology.map some)
      (hnames : series.map ChartSeries.name = topology.map Hop.name)
      (htexts : List.Forall₂ (fun s => IsBlock "HOP" "Mean Hop Latency" s.name s.outcome) series texts) :
      HopPart topology records series (String.join texts)

end Report

/-- The status by which an outcome is told in JSON. -/
def Outcome.status : Outcome → String
  | .summarized _ => "summarized"
  | .insufficient _ => "insufficient_data"

/-- The member of an object under a name. -/
def Json.member? (name : String) (j : Json) : Option Json := j.fields?.bind (Json.field? name)

/-- The entry of a series: its name, and whether it was summarized. -/
structure ChartSeries.IsEntry (s : ChartSeries) (entry : Json) : Prop where
  name : (entry.member? "name").bind Json.text? = some s.name
  status : ((entry.member? "outcome").bind (Json.member? "status")).bind Json.text? = some s.outcome.status

namespace Report

/-! ## Blocks -/

theorem isBlock_text (kind meanLabel name : String) (o : Outcome) :
    IsBlock kind meanLabel name o ("\n" ++ kind ++ " " ++ name ++ "\n" ++ o.text meanLabel) := by
  cases o with
  | summarized s => exact .result s _ _ _ _ _ _
  | insufficient usable => exact .note usable

section Status

variable {kind meanLabel name text : String}

theorem IsBlock.exists_result {s : Summary} (h : IsBlock kind meanLabel name (.summarized s) text) :
    ∃ rest, text = "\n" ++ kind ++ " " ++ name ++ "\n" ++ ("   Observations: " ++ rest) := by
  cases h
  simp only [String.append_assoc]
  exact ⟨_, rfl⟩

theorem IsBlock.exists_note {usable : Nat} (h : IsBlock kind meanLabel name (.insufficient usable) text) :
    ∃ rest, text = "\n" ++ kind ++ " " ++ name ++ "\n" ++ ("   Not enough data points to plot (" ++ rest) := by
  cases h
  simp only [String.append_assoc]
  exact ⟨_, rfl⟩

theorem not_result_and_note {s : Summary} {usable : Nat}
    (hresult : IsBlock kind meanLabel name (.summarized s) text) :
    ¬ IsBlock kind meanLabel name (.insufficient usable) text := by
  intro hnote
  obtain ⟨result, hresult⟩ := hresult.exists_result
  obtain ⟨note, hnote⟩ := hnote.exists_note
  have hlists := congrArg String.toList (hresult.symm.trans hnote)
  simp only [String.toList_append] at hlists
  -- Behind the same heading the first lines differ in their fourth characters.
  have hfourth := congrArg (fun cs => cs[3]?) (List.append_cancel_left hlists)
  rw [List.getElem?_append_left (by decide), List.getElem?_append_left (by decide)] at hfourth
  exact absurd hfourth (by decide)

/-- **A result and a note are not mistaken for each other.** -/
theorem IsBlock.status_eq {o o' : Outcome} (h : IsBlock kind meanLabel name o text)
    (h' : IsBlock kind meanLabel name o' text) : o.status = o'.status := by
  cases o with
  | summarized s =>
    cases o' with
    | summarized s' => rfl
    | insufficient usable => exact absurd h' (not_result_and_note h)
  | insufficient usable =>
    cases o' with
    | summarized s => exact absurd h (not_result_and_note h')
    | insufficient usable' => rfl

end Status

theorem text_tag (r : TagReport) :
    IsBlock "RDTSC" "Mean Latency" r.series.name r.series.outcome (Statement.tag r).text :=
  isBlock_text "RDTSC" "Mean Latency" r.tag r.outcome

theorem text_hop (r : HopReport) :
    IsBlock "HOP" "Mean Hop Latency" r.series.name r.series.outcome (Statement.hop r).text :=
  isBlock_text "HOP" "Mean Hop Latency" r.hop.name r.outcome

/-! ## Parts -/

theorem forall₂_texts {α : Type} {series : α → ChartSeries} {statement : α → Statement}
    {kind meanLabel : String}
    (h : ∀ r, IsBlock kind meanLabel (series r).name (series r).outcome (statement r).text) (rs : List α) :
    List.Forall₂ (fun s => IsBlock kind meanLabel s.name s.outcome) (rs.map series)
      ((rs.map statement).map Statement.text) := by
  rw [List.map_map]
  exact List.forall₂_map_left_iff.mpr (List.forall₂_map_right_iff.mpr (List.forall₂_same.mpr fun r _ => h r))

theorem rdtscPart_of_tags {r : Report} {records : List Record} (hcount : r.rdtscRecords = records.length)
    (htags : r.rdtsc.map TagReport.tag = (records.map Record.tag).eraseDups) :
    RdtscPart records r.chart.rdtsc (String.join (r.rdtscPart.map Statement.text)) := by
  rw [Report.rdtscPart, hcount]
  cases records with
  | nil =>
    have hnone : r.rdtsc = [] := List.map_eq_nil_iff.mp htags
    rw [chart, hnone]
    exact .notice rfl
  | cons record records =>
    rw [List.length_cons, if_neg (Nat.succ_ne_zero _), List.nil_append, chart]
    refine .blocks (List.cons_ne_nil _ _) ?_ (forall₂_texts text_tag r.rdtsc)
    rw [List.map_map, ← htags]
    rfl

theorem hopPart_of_hops {r : Report} {records : List Record} {topology : Topology}
    (hcount : r.tttRecords = records.length)
    (hhops : r.hops.map HopReport.hop = if records.isEmpty then [] else topology) :
    HopPart topology records r.chart.hops (String.join (r.hopPart.map Statement.text)) := by
  rw [Report.hopPart, hcount]
  cases records with
  | nil =>
    have hnone : r.hops = [] := List.map_eq_nil_iff.mp hhops
    rw [chart, hnone]
    exact .noReadings rfl
  | cons record records =>
    have hhops : r.hops.map HopReport.hop = topology := hhops
    rw [List.length_cons, if_neg (Nat.succ_ne_zero _), chart]
    cases topology with
    | nil =>
      have hnone : r.hops = [] := List.map_eq_nil_iff.mp hhops
      rw [hnone]
      exact .noHops (List.cons_ne_nil _ _) rfl
    | cons hop hops =>
      have hsome : r.hops.isEmpty = false := by
        rw [Bool.eq_false_iff, ne_eq, List.isEmpty_iff, ← List.map_eq_nil_iff (f := HopReport.hop), hhops]
        exact List.cons_ne_nil _ _
      rw [hsome, if_neg Bool.false_ne_true, List.nil_append]
      refine .blocks (List.cons_ne_nil _ _) (List.cons_ne_nil _ _) ?_ ?_ (forall₂_texts text_hop r.hops)
      · rw [List.map_map, ← hhops, List.map_map]
        rfl
      · rw [List.map_map, ← hhops, List.map_map]
        rfl

/-! ## Entries -/

theorem isEntry_toJson (s : ChartSeries) : s.IsEntry s.toJson := by
  obtain ⟨name, hop, outcome⟩ := s
  constructor
  · cases hop <;> simp [Json.member?, ChartSeries.toJson, Json.field?]
  · cases hop <;> cases outcome <;>
      simp [Json.member?, ChartSeries.toJson, Json.field?, Outcome.toJson, Outcome.status]

theorem entries_toJson (c : Chart) :
    (c.toJson.member? "rdtsc").bind Json.elements? = some (c.rdtsc.map ChartSeries.toJson) ∧
      (c.toJson.member? "hops").bind Json.elements? = some (c.hops.map ChartSeries.toJson) := by
  constructor <;> simp [Json.member?, Chart.toJson, Json.field?, Json.elements?]

theorem forall₂_isEntry (series : List ChartSeries) :
    List.Forall₂ ChartSeries.IsEntry series (series.map ChartSeries.toJson) :=
  List.forall₂_map_right_iff.mpr (List.forall₂_same.mpr fun s _ => isEntry_toJson s)

/-! ## Both forms -/

/-- **A text says one thing in each part, and its blocks are the entries of the JSON form**, one for one and in
their order. -/
theorem text_parts (config : Config) (set : RecordSet) :
    ∃ rdtscText hopText json rdtscEntries hopEntries,
      (analyze config set).text = (analyze config set).head ++ rdtscText ++ hopText ∧
      RdtscPart set.rdtsc (analyze config set).chart.rdtsc rdtscText ∧
      HopPart config.topology set.ttt (analyze config set).chart.hops hopText ∧
      Json.read? (analyze config set).written = some json ∧
      (json.member? "rdtsc").bind Json.elements? = some rdtscEntries ∧
      (json.member? "hops").bind Json.elements? = some hopEntries ∧
      List.Forall₂ ChartSeries.IsEntry (analyze config set).chart.rdtsc rdtscEntries ∧
      List.Forall₂ ChartSeries.IsEntry (analyze config set).chart.hops hopEntries := by
  have htags : (analyze config set).rdtsc.map TagReport.tag = (set.rdtsc.map Record.tag).eraseDups := by
    show (set.rdtscTags.map (Analysis.tagReport set)).map TagReport.tag = _
    rw [List.map_map, RecordSet.rdtscTags, firstOccurrences_eq_eraseDupsBy]
    exact List.map_id _
  have hhops : (analyze config set).hops.map HopReport.hop = if set.ttt.isEmpty then [] else config.topology := by
    show (Analysis.hopReports config.topology set).map HopReport.hop = _
    rw [Analysis.hopReports_eq_map, List.map_map]
    exact List.map_id _
  have hread := (analyze config set).chart.read?_json_written
  rw [Report.written_chart] at hread
  obtain ⟨hrdtscEntries, hhopEntries⟩ := entries_toJson (analyze config set).chart
  refine ⟨_, _, _, _, _, ?_, rdtscPart_of_tags rfl htags, hopPart_of_hops rfl hhops, hread, hrdtscEntries,
    hhopEntries, forall₂_isEntry _, forall₂_isEntry _⟩
  rw [Report.text, List.map_append, String.join_append, String.append_assoc]

end Report

end LatencyLog
