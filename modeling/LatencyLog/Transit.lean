import LatencyLog.Binary64.Arithmetic
import LatencyLog.Binary64.Order
import LatencyLog.Series.Basic
import LatencyLog.Topology

/-!
# Transits of a hop

To see a hop in the stream of counter readings, the stream is narrowed to the events at its two
ends. Each event is compared with the event just before it, whichever end that was at: if the
event is at the destination and its reading is greater, the difference is a transit of the hop, at
the time of the event. One pass does it, which carries the last reading along (`Hop.Watch`).

This takes for granted that sources and destinations roughly alternate. A destination that follows
a destination is compared with that one and not with the last source, so in a burst of repeated
tags a transit can come out too short, or not at all, or where no source was.
-/

namespace LatencyLog

namespace Hop

/-- The events of a stream at one of the two ends. -/
def select (hop : Hop) (stream : List Record) : List Record :=
  stream.filter fun r => hop.selects r.tag

/-- The transit that an event completes, seen after a reading. -/
def transit? (hop : Hop) (before : Binary64) (event : Record) : Option Point :=
  let latency := event.value - before
  if Binary64.zero.lt latency && decide (event.tag = hop.destination) then
    some ⟨event.time, latency⟩
  else none

/-- What is known behind an event: its reading, and the transits up to it. -/
structure Watch where
  reading : Option Binary64
  transits : Array Point

namespace Watch

/-- Before any event there is no reading. -/
def start : Watch := ⟨none, #[]⟩

end Watch

/-- One event further. Its reading is the last one from now on, whether or not it completes a
transit. -/
def observe (hop : Hop) (watch : Watch) (event : Record) : Watch where
  reading := some event.value
  transits :=
    match watch.reading.bind fun before => hop.transit? before event with
    | some transit => watch.transits.push transit
    | none => watch.transits

/-- The transits of a hop in a stream in the order of time. -/
def transits (hop : Hop) (stream : List Record) : List Point :=
  ((hop.select stream).foldl hop.observe .start).transits.toList

end Hop

/-- The transits of every hop, in the order of the topology. -/
def Topology.transits (topology : Topology) (stream : List Record) : List (Hop × List Point) :=
  topology.map fun hop => (hop, hop.transits stream)

end LatencyLog
