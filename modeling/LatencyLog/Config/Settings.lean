import LatencyLog.Toml.Document
import LatencyLog.Topology

/-!
# Settings of a configuration file

A configuration file is a TOML document with two keys, both optional:

```toml
cpu_freq_ghz = 3.1

[[hops]]
source = "Ticker_Received"
destination = "Order_Sent"
```

Other keys are refused. A hop may hold further keys, which mean nothing, and may also be written as
an array whose first two elements are its tags.
-/

namespace LatencyLog

/-- What a configuration file says. -/
structure Settings where
  ghz : Option Binary64
  /-- The hops that replace the default topology. -/
  topology : Option Topology
deriving DecidableEq

/-- The hop that a value writes. -/
def Hop.ofToml? : Toml.Value → Option Hop
  | .table entries => do
    let source ← entries.lookup "source"
    let destination ← entries.lookup "destination"
    some ⟨← source.text?, ← destination.text?⟩
  | .array (source :: destination :: _) => do some ⟨← source.text?, ← destination.text?⟩
  | _ => none

/-- The hops that a value writes. -/
def Topology.ofToml? : Toml.Value → Option Topology
  | .array hops => hops.mapM Hop.ofToml?
  | _ => none

namespace Settings

/-- A file that says nothing. -/
def empty : Settings := ⟨none, none⟩

/-- What an entry means, if there is one. -/
def entry? {α : Type} (read : Toml.Value → Option α) (value : Option Toml.Value) :
    Option (Option α) :=
  match value with
  | some v => (read v).map some
  | none => some none

/-- The settings in a document. -/
def ofToml? : Toml.Value → Option Settings
  | .table entries =>
    if entries.all fun entry => entry.1 = "cpu_freq_ghz" || entry.1 = "hops" then do
      some
        ⟨← entry? Toml.Value.number? (entries.lookup "cpu_freq_ghz"),
          ← entry? Topology.ofToml? (entries.lookup "hops")⟩
    else none
  | _ => none

/-- The settings in the text of a configuration file. -/
def read? (cs : List Char) : Option Settings := (Toml.document? cs).bind ofToml?

end Settings

end LatencyLog
