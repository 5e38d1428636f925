import LatencyLog.Run

/-!
# The command line program

The program looks at the directories that the patterns go through, reads the files that are needed,
and so has a `FileSystem` that holds what the run can see. Then it carries out what the run says:
the journal goes to standard error, the text report to standard output and the JSON report into its
file.

The journal is stamped with the seconds since the program started.
-/

namespace LatencyLog.Program

/-- How far down `**` is followed. -/
def maxDepth : Nat := 40

/-- The path of a place. -/
def pathOf (place : List String) : String := "/" ++ "/".intercalate place

/-- What stands at a place, without its content: a directory, a file, or nothing. -/
def kindAt (place : List String) : IO (Option FileTree) := do
  try
    let there ← IO.FS.realPath (pathOf place)
    if ← there.isDir then return some .empty
    else if ← there.pathExists then return some (.file [])
    else return none
  catch _ => return none

/-- The names in a directory; none if it is no directory. -/
def namesAt (place : List String) : IO (List String) := do
  try
    let there ← IO.FS.realPath (pathOf place)
    return (← there.readDir).toList.map fun entry => entry.fileName
  catch _ => return []

/-- Adds what stands at a place to the tree, if it is not in it. -/
def note (tree : FileTree) (place : List String) : IO FileTree := do
  if (tree.at? place).isSome then return tree
  match ← kindAt place with
  | some there => return tree.put place there
  | none => return tree

/-- Adds everything below a place. -/
def noteBelow : (depth : Nat) → FileTree → List String → IO FileTree
  | 0, tree, _ => return tree
  | depth + 1, tree, place => do
    let mut tree := tree
    for name in ← namesAt place do
      tree ← note tree (place ++ [name])
      tree ← noteBelow depth tree (place ++ [name])
    return tree

/-- Adds what the components of a pattern look at, seen from a place. -/
def noteMatches : List Glob.Component → FileTree → List String → IO FileTree
  | [], tree, _ => return tree
  | .directories :: _, tree, place => noteBelow maxDepth tree place
  | .named pieces :: rest, tree, place => do
    match Glob.name? pieces with
    | some ".." => noteMatches rest tree place.dropLast
    | some name =>
      if name = "" ∨ name = "." then noteMatches rest tree place
      else noteMatches rest (← note tree (place ++ [name])) (place ++ [name])
    | none =>
      let mut tree := tree
      if Glob.accepts pieces ['.'] then tree ← noteMatches rest tree place
      if Glob.accepts pieces ['.', '.'] then tree ← noteMatches rest tree place.dropLast
      for name in ← namesAt place do
        tree ← note tree (place ++ [name])
        if Glob.accepts pieces name.toList then tree ← noteMatches rest tree (place ++ [name])
      return tree

/-- Adds what a path goes through. -/
def notePath (fs : FileSystem) (path : String) : IO FileSystem := do
  let named (name : String) : Glob.Component := .named (name.toList.map .char)
  let components := (FileSystem.names path).map named
  return { fs with root := ← noteMatches components fs.root (fs.start path) }

/-- Adds what a pattern looks at. -/
def notePattern (fs : FileSystem) (pattern : String) : IO FileSystem := do
  match Glob.Pattern.read? pattern with
  | .ok p => return { fs with root := ← noteMatches p.components fs.root (fs.start pattern) }
  | .error _ => return fs

/-- Adds the content of a file. -/
def fetch (fs : FileSystem) (path : String) : IO FileSystem := do
  match fs.place path, fs.read path with
  | .ok place, .ok _ =>
    let content ← IO.FS.readBinFile path
    return { fs with root := fs.root.put place (.file content.toList) }
  | _, _ => return fs

/-- A working directory with nothing in it. -/
def emptyAt (path : String) : FileSystem :=
  let here := FileSystem.names path
  ⟨FileTree.empty.put here .empty, here⟩

/-- The file system as far as an invocation looks at it. -/
def surveyed (i : Invocation) : IO FileSystem := do
  let mut fs := emptyAt (← IO.currentDir).toString
  for path in i.config.toList ++ i.json.toList do
    fs ← notePath fs path
  for pattern in i.patterns do
    fs ← notePattern fs pattern
  for path in i.config.toList ++ (Matching.ofPatterns fs i.patterns).paths.eraseDups do
    fs ← fetch fs path
  return fs

/-- Seconds with nine places. -/
def seconds (nanos : Nat) : String :=
  let fraction := String.ofList (Decimal.padded 9 (nanos % 1000000000))
  toString (nanos / 1000000000) ++ "." ++ fraction ++ "s"

/-- Carries out a run: its journal, its output and its file. -/
def perform (command : Command) (filter : Option Journal.Filter) (run : Run)
    (started looked : Nat) : IO Unit := do
  let asJson := match command with
    | .run i => i.logJson
    | _ => false
  let ended ← IO.monoNanosNow
  let lineOf (e : Event) : String :=
    let durations := [looked - started, ended - looked]
    let more := e.addedNames.zip (durations.map fun nanos => .text (latencyText nanos))
    let time := seconds (ended - started)
    if asJson then e.jsonLine time more else e.textLine time more
  let tell (e : Event) : IO Unit := do
    if filter.any fun f => f.passes e then IO.eprintln (lineOf e)
  let isWritten (e : Event) : Bool := match e with
    | .reportWritten _ => true
    | _ => false
  for e in run.events.filter (!isWritten ·) do
    tell e
  IO.print run.output
  (← IO.getStdout).flush
  for e in run.events.filter isWritten do
    if let .reportWritten path := e then
      if let .ok content := run.files.read path then
        IO.FS.writeBinFile path (ByteArray.mk content.toArray)
        tell e

/-- Runs the program with its arguments, and gives the exit status. -/
def start (arguments : List String) : IO UInt32 := do
  let started ← IO.monoNanosNow
  let command := Command.read arguments
  let fs ← match command with
    | .run i => surveyed i
    | _ => pure (emptyAt "/")
  let looked ← IO.monoNanosNow
  let filter := Journal.Filter.ofText? (← IO.getEnv "RUST_LOG")
  let run := Run.ofCommand fs filter command
  perform command filter run started looked
  for line in (run.failed.map RunError.lines).getD [] do
    IO.eprintln line
  return run.exit.toUInt32

end LatencyLog.Program

def main (arguments : List String) : IO UInt32 := LatencyLog.Program.start arguments
