import LatencyLog.Config.Settings
import LatencyLog.Files.Tree
import LatencyLog.Frequency

/-!
# Configurations

A run needs a frequency and a topology. Each has a default, which a configuration file replaces; a
frequency on the command line replaces both. Settings are checked before they are replaced: a file
with a bad frequency is an error, whatever the command line says. Of two errors in one file the
frequency is reported, and of several empty tags the first.
-/

namespace LatencyLog

/-- An end of a hop. -/
inductive Hop.End where
  | source
  | destination
deriving DecidableEq

def Hop.End.name : Hop.End → String
  | source => "source"
  | destination => "destination"

/-- Why there is no configuration. -/
inductive ConfigError where
  | unreadable (path : String) (cause : TextError)
  /-- The file is no TOML document, or one that does not hold settings. -/
  | malformed (path : String)
  | frequency (cause : FrequencyError)
  /-- A hop, by its place in the list, has an empty tag. -/
  | emptyTag (index : Nat) (end_ : Hop.End)
deriving DecidableEq

namespace ConfigError

def message : ConfigError → String
  | unreadable path cause => "failed to read config file " ++ path ++ ": " ++ cause.message
  | malformed path => "failed to parse TOML in " ++ path
  | frequency cause => cause.message
  | emptyTag index end_ => "hop #" ++ toString index ++ " has an empty " ++ end_.name ++ " tag"

end ConfigError

/-- What a run is configured with. -/
structure Config where
  frequency : Frequency
  topology : Topology
deriving DecidableEq

namespace Config

def default : Config := ⟨.default, .pipeline⟩

/-- The end of a hop that has an empty tag, the source first. -/
def emptyEnd? (hop : Hop) : Option Hop.End :=
  if hop.source = "" then some .source
  else if hop.destination = "" then some .destination
  else none

/-- The first hop with an empty tag, from a given index on. -/
def emptyTagFrom? : (index : Nat) → Topology → Option (Nat × Hop.End)
  | _, [] => none
  | index, hop :: hops =>
    match emptyEnd? hop with
    | some e => some (index, e)
    | none => emptyTagFrom? (index + 1) hops

/-- The frequency of a file. -/
def frequencyOf (settings : Settings) : Except ConfigError Frequency :=
  match settings.ghz with
  | some ghz => (Frequency.ofGhz ghz).mapError .frequency
  | none => .ok .default

/-- The topology of a file. -/
def topologyOf (settings : Settings) : Except ConfigError Topology :=
  match settings.topology with
  | some hops =>
    match emptyTagFrom? 0 hops with
    | some (index, e) => .error (.emptyTag index e)
    | none => .ok hops
  | none => .ok .pipeline

/-- The defaults with the settings of a file on top. -/
def ofSettings (settings : Settings) : Except ConfigError Config :=
  (frequencyOf settings).bind fun frequency =>
    (topologyOf settings).map fun topology => ⟨frequency, topology⟩

/-- The configuration with a frequency from the command line, if there is one. -/
def withFlag (config : Config) (flag : Option Frequency) : Config :=
  { config with frequency := flag.getD config.frequency }

/-- The settings of the file that a path names; no path, no settings. -/
def settingsAt (fs : FileSystem) : (path : Option String) → Except ConfigError Settings
  | none => .ok .empty
  | some path =>
    match fs.readText path with
    | .error cause => .error (.unreadable path cause)
    | .ok cs =>
      match Settings.read? cs with
      | some settings => .ok settings
      | none => .error (.malformed path)

/-- The configuration of a run. -/
def load (fs : FileSystem) (path : Option String) (flag : Option Frequency) :
    Except ConfigError Config :=
  (settingsAt fs path).bind fun settings =>
    (ofSettings settings).map fun config => config.withFlag flag

end Config

end LatencyLog
