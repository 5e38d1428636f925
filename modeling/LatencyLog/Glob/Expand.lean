import LatencyLog.Files.Tree
import LatencyLog.Glob.Pattern

/-!
# Files that match a pattern

A pattern is expanded component by component, from the root or from where relative paths start. What
is found on the way is a path as text: a component without wildcards is joined to it as it is, so
`d/./x` stays `d/./x`. Only directly behind a leading `.` nothing is joined, and `./*` finds `x`.

Entries come in the order of their names (`FileTree.listing`), and a directory comes before what is
below it. The names `.` and `..` are no entries of a directory; a pattern finds them if it begins with
a dot.

A path can grow too long to be looked at. An entry of a directory is known to be there all the same,
and so are `.` and `..`, but a directory that cannot be listed ends the search.
-/

namespace LatencyLog.Glob

/-! ## Failures -/

/-- A directory whose entries could not be listed. -/
structure ListingError where
  path : String
  cause : FileError
deriving DecidableEq

def ListingError.message (e : ListingError) : String :=
  "attempting to read `" ++ e.path ++ "` resulted in an error: " ++ e.cause.message

/-- Why a pattern has no list of paths. -/
inductive Failure where
  | malformed (cause : PatternError)
  | unlisted (pattern : String) (cause : ListingError)
deriving DecidableEq

namespace Failure

def message : Failure → String
  | malformed e => e.message
  | unlisted pattern e => "failed to list files for pattern " ++ pattern ++ ": " ++ e.message

/-- The failure without the pattern. -/
def cause : Failure → String
  | malformed e => e.cause
  | unlisted _ e => e.message

end Failure

/-! ## Steps -/

/-- A path, and what stands there if it can be looked at. -/
structure Found where
  path : String
  tree : Option FileTree

def Found.isDirectory (f : Found) : Bool := f.tree.any FileTree.isDirectory

/-- The path is where relative paths start. -/
def isHere (path : String) : Bool :=
  !FileSystem.isAbsolute path && !(FileSystem.names path).isEmpty &&
    (FileSystem.names path).all fun name => decide (name = ".")

/-- A path one step further. -/
def join (path name : String) : String :=
  if FileSystem.endsInSlash path then path ++ name else path ++ "/" ++ name

/-- A path one step further; from where relative paths start, the step alone. -/
def next (path name : String) : String := if isHere path then name else join path name

/-- The last name of a path. -/
def lastName (path : String) : List Char := (((FileSystem.names path).getLast?).getD "").toList

/-- What a search goes through: finds, and directories that could not be listed. -/
abbrev Search := List (Except ListingError Found)

/-- What an entry of a directory is, found at the path of the directory. -/
def entryAt (path : String) (e : String × FileTree) : Found := ⟨next path e.1, some e.2⟩

/-- The entries of a directory at a path, in the order of their names. -/
def entriesAt (path : String) (es : List (String × FileTree)) : Search :=
  match FileSystem.fault? path with
  | some cause => [.error ⟨path, cause⟩]
  | none => ((FileTree.listing es).map (entryAt path)).map .ok

/-- The entries of a directory. -/
def entries (here : Found) : Search :=
  match here.tree with
  | some (.directory es) => entriesAt here.path es
  | _ => []

/-- Everything below a directory, entry by entry in the order of their names, and each directory before
what is below it. -/
def below (path : String) (tree : FileTree) : Search :=
  match tree with
  | .file _ => []
  | .directory es =>
    match FileSystem.fault? path with
    | some cause => [.error ⟨path, cause⟩]
    | none =>
      (FileTree.listing es).attach.flatMap fun ⟨e, _⟩ =>
        .ok (entryAt path e) :: below (next path e.1) e.2
termination_by sizeOf tree
decreasing_by
  rename_i h
  obtain ⟨name, child⟩ := e
  have := List.sizeOf_lt_of_mem (FileTree.mem_of_mem_listing h)
  simp only [FileTree.directory.sizeOf_spec, Prod.mk.sizeOf_spec] at *
  omega

theorem below_file (path : String) (content : List UInt8) : below path (.file content) = [] := by
  rw [below]

theorem below_directory_of_fault {path : String} {cause : FileError}
    (h : FileSystem.fault? path = some cause) (es : List (String × FileTree)) :
    below path (.directory es) = [.error ⟨path, cause⟩] := by
  rw [below, h]

theorem below_directory {path : String} (h : FileSystem.fault? path = none)
    (es : List (String × FileTree)) :
    below path (.directory es) =
      (FileTree.listing es).flatMap fun e => .ok (entryAt path e) :: below (next path e.1) e.2 := by
  rw [below, h]
  dsimp only
  rw [← List.flatMap_map Subtype.val
      fun e => .ok (entryAt path e) :: below (next path e.1) e.2,
    List.attach_map_subtype_val]

/-- Everything below what was found. -/
def Found.below (here : Found) : Search := (here.tree.map (Glob.below here.path)).getD []

/-- A path with what stands there, which may be nothing. -/
def look (fs : FileSystem) (path : String) : Found := ⟨path, (fs.resolve path).toOption⟩

/-- What a name stands for. In a directory, `.` and `..` are there without looking. -/
def step (fs : FileSystem) (here : Found) (name : String) : List Found :=
  let there := look fs (next here.path name)
  let isThere := if name = "." ∨ name = ".." then here.isDirectory else there.tree.isSome
  if isThere then [there] else []

/-- The names `.` and `..`, as far as pieces that begin with a dot accept them, the latter first. -/
def dots (fs : FileSystem) (here : Found) (pieces : List Piece) : List Found :=
  if here.isDirectory ∧ pieces.head? = some (.char '.') then
    ([".." , "."].filter fun name => accepts pieces name.toList).map fun name =>
      look fs (join here.path name)
  else []

/-! ## Expansion -/

/-- Goes on from everything that a search goes through, up to the first failure. -/
def goOn (f : Found → Except ListingError (List Found)) (search : Search) :
    Except ListingError (List Found) :=
  (search.mapM fun (found : Except ListingError Found) => found.bind f).map List.flatten

/-- What components stand for, seen from a path. Several `**` in a row are one. -/
def expand (fs : FileSystem) : List Component → Found → Except ListingError (List Found)
  | [], here => .ok [here]
  | .named pieces :: rest, here =>
    match name? pieces with
    | some name => goOn (expand fs rest) ((step fs here name).map .ok)
    | none => do
      let listed ← goOn (fun e => .ok [e]) (entries here)
      let named := listed.filter fun e => accepts pieces (lastName e.path)
      goOn (expand fs rest) ((dots fs here pieces ++ named).map .ok)
  | [.directories], here => goOn (fun e => .ok (if e.isDirectory then [e] else [])) here.below
  | .directories :: .named pieces :: rest, here =>
    goOn (fun e => if accepts pieces (lastName e.path) then expand fs rest e else .ok []) here.below
  | .directories :: .directories :: rest, here => expand fs (.directories :: rest) here

/-- The paths that a pattern finds. -/
def Pattern.paths (fs : FileSystem) (pattern : Pattern) : Except ListingError (List String) :=
  let start := look fs (if pattern.absolute then "/" else ".")
  (expand fs pattern.components start).map fun found =>
    (found.filter fun e => !pattern.directoriesOnly || e.isDirectory).map Found.path

/-- The paths that a pattern in text finds. -/
def paths (fs : FileSystem) (pattern : String) : Except Failure (List String) :=
  match Pattern.read? pattern with
  | .error e => .error (.malformed e)
  | .ok p => (p.paths fs).mapError (.unlisted pattern)

end LatencyLog.Glob
