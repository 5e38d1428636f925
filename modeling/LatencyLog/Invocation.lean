import LatencyLog.Frequency

/-!
# The command line

Arguments are read from left to right. An option takes its value behind `=` or as the next argument,
which then must not look like an option. Everything behind `--`, and everything that does not begin
with a dash, is a pattern; so is a dash alone. No option may be given twice.

The first thing that is wrong, or the first request for help or for the version, decides, and what
stands behind it is not looked at.
-/

namespace LatencyLog

/-- What a run is asked to do. -/
structure Invocation where
  patterns : List String
  frequency : Option Frequency
  config : Option String
  /-- Where the report goes as JSON. -/
  json : Option String
  /-- The journal is written as JSON. -/
  logJson : Bool
deriving DecidableEq

/-- What is wrong with a command line. -/
inductive Misuse where
  | unknownArgument (argument : String)
  | missingValue (option : String)
  | badValue (option value reason : String)
  | unexpectedValue (option : String)
  | repeated (option : String)
  | noPattern
deriving DecidableEq

def Misuse.message : Misuse → String
  | unknownArgument argument => "unexpected argument '" ++ argument ++ "' found"
  | missingValue option => "a value is required for '" ++ option ++ "' but none was supplied"
  | badValue option value reason =>
    "invalid value '" ++ value ++ "' for '" ++ option ++ "': " ++ reason
  | unexpectedValue option => "unexpected value for '" ++ option ++ "' found; no more were expected"
  | repeated option => "the argument '" ++ option ++ "' cannot be used multiple times"
  | noPattern => "the following required arguments were not provided: <PATTERN>..."

/-- What a command line means. -/
inductive Command where
  | run (invocation : Invocation)
  | help
  | version
  | misuse (what : Misuse)
deriving DecidableEq

namespace Invocation

def empty : Invocation := ⟨[], none, none, none, false⟩

/-- What one argument looks like. -/
inductive Form where
  | pattern
  /-- `--name` or `--name=value` -/
  | long (name : List Char) (value : Option String)
  /-- `-` and letters, of which there is at least one. -/
  | short (letter : Char)
deriving DecidableEq

/-- The form of an argument other than `--`. -/
def formOf (argument : String) : Form :=
  match argument.toList with
  | '-' :: '-' :: cs =>
    let name := cs.takeWhile fun c => decide (c ≠ '=')
    match cs.dropWhile fun c => decide (c ≠ '=') with
    | [] => .long name none
    | _ :: value => .long name (some (String.ofList value))
  | '-' :: letter :: _ => .short letter
  | _ => .pattern

/-- An option that takes a value. -/
inductive Setting where
  | frequency
  | config
  | json
deriving DecidableEq

def Setting.text : Setting → String
  | frequency => "--cpu-freq <GHZ>"
  | config => "--config <FILE>"
  | json => "--json <FILE>"

/-- An invocation with one more setting. -/
def set (i : Invocation) (setting : Setting) (value : String) : Except Misuse Invocation :=
  let file (old : Option String) (new : Invocation) : Except Misuse Invocation :=
    if old.isSome then .error (.repeated setting.text)
    else if value = "" then .error (.badValue setting.text value "a value is required")
    else .ok new
  match setting with
  | .frequency =>
    if i.frequency.isSome then .error (.repeated setting.text)
    else
      match Frequency.read value with
      | .ok f => .ok { i with frequency := some f }
      | .error e => .error (.badValue setting.text value e.message)
  | .config => file i.config { i with config := some value }
  | .json => file i.json { i with json := some value }

/-- What a long option asks for. -/
inductive Request where
  | setting (setting : Setting)
  | logJson
  | help
  | version
deriving DecidableEq

def requestOf? (name : List Char) : Option Request :=
  if name = "cpu-freq".toList then some (.setting .frequency)
  else if name = "config".toList then some (.setting .config)
  else if name = "json".toList then some (.setting .json)
  else if name = "log-json".toList then some .logJson
  else if name = "help".toList then some .help
  else if name = "version".toList then some .version
  else none

/-- The run that an invocation asks for; its patterns have been gathered last first. -/
def finish (i : Invocation) : Command :=
  if i.patterns.isEmpty then .misuse .noPattern
  else .run { i with patterns := i.patterns.reverse }

/-- What arguments mean behind an invocation that is not complete, with its patterns last first. -/
def read : Invocation → List String → Command
  | i, [] => i.finish
  | i, argument :: rest =>
    if argument = "--" then finish { i with patterns := rest.reverse ++ i.patterns }
    else
      match formOf argument with
      | .pattern => read { i with patterns := argument :: i.patterns } rest
      | .short 'h' => .help
      | .short 'V' => .version
      | .short _ => .misuse (.unknownArgument argument)
      | .long name value =>
        match requestOf? name, value with
        | none, _ => .misuse (.unknownArgument argument)
        | some .help, none => .help
        | some .version, none => .version
        | some .logJson, none =>
          if i.logJson then .misuse (.repeated argument) else read { i with logJson := true } rest
        | some (.setting setting), some value =>
          match i.set setting value with
          | .ok i => read i rest
          | .error e => .misuse e
        | some (.setting setting), none =>
          match rest with
          | [] => .misuse (.missingValue setting.text)
          | value :: rest =>
            if formOf value ≠ .pattern then .misuse (.missingValue setting.text)
            else
              match i.set setting value with
              | .ok i => read i rest
              | .error e => .misuse e
        | some _, some _ => .misuse (.unexpectedValue argument)

end Invocation

/-- What a command line means. -/
def Command.read (arguments : List String) : Command := Invocation.empty.read arguments

end LatencyLog
