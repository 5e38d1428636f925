import LatencyLog.Report.Json

/-!
# Charts

A chart is what a renderer makes of a report. It keeps the series of tags and those of hops in one form,
with a name for each and a hop where there is one; a report names its series by their tags and hops
(`Report.chart`), but a chart may name them otherwise.

Charts have their own reader. It takes an object by the names of its fields and needs every one of them
once, except a hop; a number means a natural, a word or the nearest binary64 number by the field it is in;
and null is a smoothed value that is not defined.
-/

namespace LatencyLog

structure ChartSeries where
  name : String
  hop : Option Hop
  outcome : Outcome
deriving DecidableEq

structure Chart where
  ghz : Binary64
  tally : Tally
  rdtscRecords : Nat
  tttRecords : Nat
  rdtsc : List ChartSeries
  hops : List ChartSeries
deriving DecidableEq

/-! ## Writing -/

/-- A series without a hop has no field for it. -/
def ChartSeries.toJson (s : ChartSeries) : Json :=
  Json.ofFields
    (("name", Json.ofText s.name) :: (s.hop.toList.map fun hop => ("hop", hop.toJson)) ++
      [("outcome", s.outcome.toJson)])

def Chart.toJson (c : Chart) : Json :=
  Json.ofFields
    [("cpu_freq_ghz", Json.ofFloat c.ghz),
      ("ingest", c.tally.toJson),
      ("rdtsc_records", Json.ofNat c.rdtscRecords),
      ("ttt_records", Json.ofNat c.tttRecords),
      ("rdtsc", .array (c.rdtsc.map ChartSeries.toJson)),
      ("hops", .array (c.hops.map ChartSeries.toJson))]

/-- A chart as it is written into a file. -/
def Chart.written (c : Chart) : List Char := c.toJson.pretty

def TagReport.series (t : TagReport) : ChartSeries := ⟨t.tag, none, t.outcome⟩

def HopReport.series (h : HopReport) : ChartSeries := ⟨h.hop.name, some h.hop, h.outcome⟩

/-- What a renderer is given of a report. -/
def Report.chart (r : Report) : Chart where
  ghz := r.ghz
  tally := r.tally
  rdtscRecords := r.rdtscRecords
  tttRecords := r.tttRecords
  rdtsc := r.rdtsc.map TagReport.series
  hops := r.hops.map HopReport.series

/-! ## Reading -/

namespace Json

/-- The members of an object under the texts of their names. -/
def fields? : Json → Option (List (String × Json))
  | object members =>
    members.mapM fun (key, value) => (unescape? key).map fun name => (String.ofList name, value)
  | _ => none

/-- The elements of an array. -/
def elements? : Json → Option (List Json)
  | array elements => some elements
  | _ => none

/-- The one value under a name. -/
def field? (name : String) (fields : List (String × Json)) : Option Json :=
  match fields.filter fun f => decide (f.1 = name) with
  | [(_, value)] => some value
  | _ => none

/-- The values under a name. -/
def fieldsNamed (name : String) (fields : List (String × Json)) : List Json :=
  (fields.filter fun f => decide (f.1 = name)).map Prod.snd

/-- A number without a sign, a point and an exponent. -/
def natural? : Json → Option Nat
  | number literal => if literal.all Char.isDigit then some (Decimal.natOfDigits literal) else none
  | _ => none

def word? (j : Json) : Option UInt64 :=
  j.natural?.bind fun n => if n < UInt64.size then some (UInt64.ofNat n) else none

def time? (j : Json) : Option TimeOfDay := j.text?.bind fun s => TimeOfDay.read? s.toList

/-- A number that may be missing. -/
def numberOrNull? : Json → Option (Option Binary64)
  | null => some none
  | j => j.number?.map some

end Json

open Json (field?)

def Tally.ofJson? (j : Json) : Option Tally := do
  let fields ← j.fields?
  let word (name : String) := (field? name fields).bind Json.word?
  return ⟨← word "lines", ← word "rdtsc", ← word "ttt", ← word "bad_field_count", ← word "bad_value",
    ← word "bad_timestamp", ← word "unknown_kind"⟩

def Distribution.ofJson? (j : Json) : Option Distribution := do
  let fields ← j.fields?
  let natural (name : String) := (field? name fields).bind Json.natural?
  return ⟨← natural "min", ← natural "p50", ← natural "p90", ← natural "p99", ← natural "p999",
    ← natural "max"⟩

def Point.ofJson? (j : Json) : Option Point := do
  let fields ← j.fields?
  return ⟨← (field? "timestamp" fields).bind Json.time?, ← (field? "value" fields).bind Json.number?⟩

def SmoothedPoint.ofJson? (j : Json) : Option SmoothedPoint := do
  let fields ← j.fields?
  return ⟨← (field? "timestamp" fields).bind Json.time?,
    ← (field? "value" fields).bind Json.numberOrNull?⟩

def SeriesKind.ofName? (name : String) : Option SeriesKind :=
  [SeriesKind.point, .hop].find? fun kind => decide (kind.name = name)

def LatencyUnit.ofName? (name : String) : Option LatencyUnit :=
  [LatencyUnit.nanoseconds, .microseconds, .milliseconds].find? fun unit => decide (unit.name = name)

def Summary.ofFields? (fields : List (String × Json)) : Option Summary := do
  return {
    kind := ← (field? "kind" fields).bind fun j => j.text?.bind SeriesKind.ofName?
    unit := ← (field? "unit" fields).bind fun j => j.text?.bind LatencyUnit.ofName?
    count := ← (field? "count" fields).bind Json.natural?
    meanNanos := ← (field? "mean_ns" fields).bind Json.number?
    window := ← (field? "window" fields).bind Json.natural?
    distribution := ← (field? "distribution" fields).bind Distribution.ofJson?
    raw := ← (field? "raw_series" fields).bind fun j => j.elements?.bind (·.mapM Point.ofJson?)
    smoothed :=
      ← (field? "smoothed_series" fields).bind fun j => j.elements?.bind (·.mapM SmoothedPoint.ofJson?) }

/-- The status says which fields there are. -/
def Outcome.ofJson? (j : Json) : Option Outcome := do
  let fields ← j.fields?
  let status ← (field? "status" fields).bind Json.text?
  if status = "summarized" then return .summarized (← Summary.ofFields? fields)
  else if status = "insufficient_data" then
    return .insufficient (← (field? "usable" fields).bind Json.natural?)
  else none

def ChartSeries.ofJson? (j : Json) : Option ChartSeries := do
  let fields ← j.fields?
  let hop ← match Json.fieldsNamed "hop" fields with
    | [] => some none
    | [j] => (Hop.ofJson? j).map some
    | _ => none
  return ⟨← (field? "name" fields).bind Json.text?, hop, ← (field? "outcome" fields).bind Outcome.ofJson?⟩

def Chart.ofJson? (j : Json) : Option Chart := do
  let fields ← j.fields?
  return {
    ghz := ← (field? "cpu_freq_ghz" fields).bind Json.number?
    tally := ← (field? "ingest" fields).bind Tally.ofJson?
    rdtscRecords := ← (field? "rdtsc_records" fields).bind Json.natural?
    tttRecords := ← (field? "ttt_records" fields).bind Json.natural?
    rdtsc := ← (field? "rdtsc" fields).bind fun j => j.elements?.bind (·.mapM ChartSeries.ofJson?)
    hops := ← (field? "hops" fields).bind fun j => j.elements?.bind (·.mapM ChartSeries.ofJson?) }

/-- The chart that a text holds. -/
def Chart.read? (cs : List Char) : Option Chart := (Json.read? cs).bind Chart.ofJson?

end LatencyLog
