import LatencyLog.Json.Printer
import LatencyLog.Json.Reader
import LatencyLog.Topology

/-!
# Topologies as JSON

A topology is an array of hops, and a hop an object with its two tags. That is the one form
written. Read are also hops as arrays of two tags, members in any order, and members that a hop does
not have, which mean nothing. A tag that is missing or given twice makes a hop unreadable.
-/

namespace LatencyLog

namespace Hop

def toJson (hop : Hop) : Json :=
  Json.ofFields
    [("source", Json.ofText hop.source), ("destination", Json.ofText hop.destination)]

/-- The one tag that a list of members gives under a name. -/
def tag? (name : String) (members : List (String × Json)) : Option String :=
  match members.filter fun m => decide (m.1 = name) with
  | [(_, value)] => value.text?
  | _ => none

def ofJson? : Json → Option Hop
  | .array [source, destination] => do some ⟨← source.text?, ← destination.text?⟩
  | .object members => do
    let members ← members.mapM fun (key, value) =>
      (Json.unescape? key).map fun key => (String.ofList key, value)
    some ⟨← tag? "source" members, ← tag? "destination" members⟩
  | _ => none

end Hop

namespace Topology

def toJson (topology : Topology) : Json := .array (topology.map Hop.toJson)

def ofJson? : Json → Option Topology
  | .array hops => hops.mapM Hop.ofJson?
  | _ => none

/-- The topology that a text holds. -/
def read? (cs : List Char) : Option Topology := (Json.read? cs).bind ofJson?

/-- A topology on one line. -/
def written (topology : Topology) : List Char := topology.toJson.compact

end Topology

end LatencyLog
