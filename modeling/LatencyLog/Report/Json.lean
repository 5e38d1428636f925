import LatencyLog.Report.Basic
import LatencyLog.Topology.Json

/-!
# Reports for a renderer of charts

As JSON, a report gives every field that a chart needs, the points of each series included. A
smoothed value is null up to the first full window. Numbers that are not finite have no form in
JSON and are null as well.
-/

namespace LatencyLog

namespace Json

def ofWord (w : UInt64) : Json := ofNat w.toNat

def ofTime (t : TimeOfDay) : Json := string (escape t.text)

end Json

def Tally.toJson (t : Tally) : Json :=
  Json.ofFields
    [("lines", Json.ofWord t.lines),
      ("rdtsc", Json.ofWord t.rdtsc),
      ("ttt", Json.ofWord t.ttt),
      ("bad_field_count", Json.ofWord t.badFieldCount),
      ("bad_value", Json.ofWord t.badValue),
      ("bad_timestamp", Json.ofWord t.badTimestamp),
      ("unknown_kind", Json.ofWord t.unknownKind)]

def Distribution.toJson (d : Distribution) : Json :=
  Json.ofFields
    [("min", Json.ofNat d.min),
      ("p50", Json.ofNat d.p50),
      ("p90", Json.ofNat d.p90),
      ("p99", Json.ofNat d.p99),
      ("p999", Json.ofNat d.p999),
      ("max", Json.ofNat d.max)]

def Point.toJson (p : Point) : Json :=
  Json.ofFields [("timestamp", Json.ofTime p.time), ("value", Json.ofFloat p.value)]

def SmoothedPoint.toJson (p : SmoothedPoint) : Json :=
  Json.ofFields
    [("timestamp", Json.ofTime p.time), ("value", (p.value.map Json.ofFloat).getD .null)]

/-- The status says which of the two an outcome is; the other fields depend on it. -/
def Outcome.toJson : Outcome → Json
  | .summarized s =>
    Json.ofFields
      [("status", Json.ofText "summarized"),
        ("kind", Json.ofText s.kind.name),
        ("unit", Json.ofText s.unit.name),
        ("count", Json.ofNat s.count),
        ("mean_ns", Json.ofFloat s.meanNanos),
        ("window", Json.ofNat s.window),
        ("distribution", s.distribution.toJson),
        ("raw_series", .array (s.raw.map Point.toJson)),
        ("smoothed_series", .array (s.smoothed.map SmoothedPoint.toJson))]
  | .insufficient usable =>
    Json.ofFields [("status", Json.ofText "insufficient_data"), ("usable", Json.ofNat usable)]

def TagReport.toJson (r : TagReport) : Json :=
  Json.ofFields [("name", Json.ofText r.tag), ("outcome", r.outcome.toJson)]

def HopReport.toJson (r : HopReport) : Json :=
  Json.ofFields
    [("name", Json.ofText r.hop.name), ("hop", r.hop.toJson), ("outcome", r.outcome.toJson)]

namespace Report

def toJson (r : Report) : Json :=
  Json.ofFields
    [("cpu_freq_ghz", Json.ofFloat r.ghz),
      ("ingest", r.tally.toJson),
      ("rdtsc_records", Json.ofNat r.rdtscRecords),
      ("ttt_records", Json.ofNat r.tttRecords),
      ("rdtsc", .array (r.rdtsc.map TagReport.toJson)),
      ("hops", .array (r.hops.map HopReport.toJson))]

/-- A report as it is written into a file. -/
def written (r : Report) : List Char := r.toJson.pretty

end Report

end LatencyLog
