import LatencyLog.Text.Utf8

/-!
# File trees

A run reads files, looks into directories and writes one file. All it can see of a file system is a
`FileSystem`: a tree of directories and files, and the place in it where relative paths start. With
it, a run is a function, and what a run changes is a difference of two trees.

* `resolve` walks a path from directory to directory, and fails the way opening a path fails: a
  name that is not there or longer than a name can be, or a step below something that is no
  directory. Some paths name nothing whatever is in the tree (`fault?`);
* `read` and `write` open the file that a path names, and refuse a directory. A file that is read as
  text has to be UTF-8 throughout (`readText`);
* `listing` is what is seen of a directory: in the order of their names, the entries that a step can
  lead to;
* `put` adds to a tree, and makes the directories on the way.
-/

namespace LatencyLog

/-- A file with its bytes, or a directory with its named entries. -/
inductive FileTree where
  | file (content : List UInt8)
  | directory (entries : List (String × FileTree))

/-- Why a file could not be opened, or not be read. -/
inductive FileError where
  | notFound
  | notADirectory
  | isADirectory
  | nameTooLong
  /-- There is a character 0 in the path. -/
  | zeroInPath
deriving DecidableEq

/-- The text of the operating system. For `zeroInPath`, which never gets there, it is another. -/
def FileError.message : FileError → String
  | notFound => "No such file or directory (os error 2)"
  | notADirectory => "Not a directory (os error 20)"
  | isADirectory => "Is a directory (os error 21)"
  | nameTooLong => "File name too long (os error 36)"
  | zeroInPath => "file name contained an unexpected NUL byte"

/-- Why a file could not be read as text. -/
inductive TextError where
  | file (cause : FileError)
  | notUtf8
deriving DecidableEq

def TextError.message : TextError → String
  | file cause => cause.message
  | notUtf8 => "stream did not contain valid UTF-8"

namespace FileTree

def empty : FileTree := directory []

def isDirectory : FileTree → Bool
  | directory _ => true
  | file _ => false

def entries : FileTree → List (String × FileTree)
  | directory es => es
  | file _ => []

/-- Entries with one of them new or replaced, in the order of their names. -/
def insertEntry (name : String) (tree : FileTree) :
    List (String × FileTree) → List (String × FileTree)
  | [] => [(name, tree)]
  | (n, t) :: rest =>
    if name < n then (name, tree) :: (n, t) :: rest
    else if name = n then (name, tree) :: rest
    else (n, t) :: insertEntry name tree rest

/-- The tree with something put at a place below it; directories on the way are made. -/
def put : FileTree → (place : List String) → (new : FileTree) → FileTree
  | _, [], new => new
  | tree, name :: names, new =>
    directory
      (insertEntry name (put ((tree.entries.lookup name).getD empty) names new) tree.entries)

/-- What stands at a place below a tree. -/
def at? : List String → FileTree → Option FileTree
  | [], tree => some tree
  | name :: names, tree => (tree.entries.lookup name).bind (at? names)

end FileTree

/-! ## Listings -/

/-- A name that an entry of a directory can have. -/
structure EntryName (name : String) : Prop where
  not_empty : name ≠ ""
  no_slash : '/' ∉ name.toList
  not_dot : name ≠ "."
  not_dots : name ≠ ".."

instance (name : String) : Decidable (EntryName name) :=
  decidable_of_iff (name ≠ "" ∧ '/' ∉ name.toList ∧ name ≠ "." ∧ name ≠ "..")
    ⟨fun ⟨h, h', h'', h'''⟩ => ⟨h, h', h'', h'''⟩, fun ⟨h, h', h'', h'''⟩ => ⟨h, h', h'', h'''⟩⟩

namespace FileTree

/-- The entries of a directory as they are listed, in the order of their names. Of several entries of
one name only the first can be reached, and without an entry name none can. -/
def listing : List (String × FileTree) → List (String × FileTree)
  | [] => []
  | (name, tree) :: es => if EntryName name then insertEntry name tree (listing es) else listing es

theorem mem_insertEntry {name : String} {tree : FileTree} {es : List (String × FileTree)}
    {e : String × FileTree} (h : e ∈ insertEntry name tree es) : e = (name, tree) ∨ e ∈ es := by
  induction es with
  | nil => exact Or.inl (List.mem_singleton.mp h)
  | cons d es ih =>
    obtain ⟨n, t⟩ := d
    rw [insertEntry] at h
    split at h
    · exact List.mem_cons.mp h
    · split at h
      · exact (List.mem_cons.mp h).imp_right (List.mem_cons_of_mem _)
      · rcases List.mem_cons.mp h with rfl | h
        · exact Or.inr (List.mem_cons_self ..)
        · exact (ih h).imp_right (List.mem_cons_of_mem _)

theorem mem_of_mem_listing {es : List (String × FileTree)} {e : String × FileTree}
    (h : e ∈ listing es) : e ∈ es := by
  induction es with
  | nil => exact h
  | cons d es ih =>
    obtain ⟨name, tree⟩ := d
    rw [listing] at h
    split at h
    · rcases mem_insertEntry h with rfl | h
      · exact List.mem_cons_self ..
      · exact List.mem_cons_of_mem _ (ih h)
    · exact List.mem_cons_of_mem _ (ih h)

end FileTree

/-! ## Paths -/

/-- A tree, and the names that lead from its root to where relative paths start. -/
structure FileSystem where
  root : FileTree
  here : List String

namespace FileSystem

/-- The names in a path. -/
def names (path : String) : List String :=
  ((path.toList.splitOn '/').filter (· ≠ [])).map String.ofList

def endsInSlash (path : String) : Bool := path.toList.getLast? = some '/'

/-- The steps of a path. A slash at its end asks for a directory, as a last step `.` does. -/
def steps (path : String) : List String := names path ++ if endsInSlash path then ["."] else []

def isAbsolute (path : String) : Bool := path.toList.head? = some '/'

/-- The greatest length of a path, in bytes. -/
def maxPathBytes : Nat := 4095

/-- The greatest length of a name, in bytes. -/
def maxNameBytes : Nat := 255

/-- Why a path names nothing in any tree, if it does not. -/
def fault? (path : String) : Option FileError :=
  if path.toList.contains '\x00' then some .zeroInPath
  else if path = "" then some .notFound
  else if maxPathBytes < path.utf8ByteSize then some .nameTooLong
  else none

/-- The place reached from another by steps. The root is its own parent. -/
def walk (root : FileTree) : List String → List String → Except FileError (List String)
  | place, [] => .ok place
  | place, step :: rest =>
    match root.at? place with
    | some (.directory entries) =>
      if step = "." then walk root place rest
      else if step = ".." then walk root place.dropLast rest
      else if maxNameBytes < step.utf8ByteSize then .error .nameTooLong
      else
        match entries.lookup step with
        | some _ => walk root (place ++ [step]) rest
        | none => .error .notFound
    | some (.file _) => .error .notADirectory
    | none => .error .notFound

/-- Where a path starts. -/
def start (fs : FileSystem) (path : String) : List String := if isAbsolute path then [] else fs.here

/-- The place that a path names. -/
def place (fs : FileSystem) (path : String) : Except FileError (List String) :=
  match fault? path with
  | some fault => .error fault
  | none => walk fs.root (fs.start path) (steps path)

/-- What a path names. -/
def resolve (fs : FileSystem) (path : String) : Except FileError FileTree :=
  (fs.place path).bind fun names =>
    match fs.root.at? names with
    | some tree => .ok tree
    | none => .error .notFound

/-- The bytes of the file that a path names. -/
def read (fs : FileSystem) (path : String) : Except FileError (List UInt8) :=
  (fs.resolve path).bind fun
    | .file content => .ok content
    | .directory _ => .error .isADirectory

/-- The file that a path names, made new or written over. Its directory has to be there. -/
def write (fs : FileSystem) (path : String) (content : List UInt8) : Except FileError FileSystem :=
  match fault? path, (names path).getLast? with
  | some fault, _ => .error fault
  | none, none => .error .isADirectory
  | none, some last =>
    (walk fs.root (fs.start path) (names path).dropLast).bind fun parent =>
      match fs.root.at? parent with
      | some (.directory entries) =>
        if endsInSlash path ∨ last = "." ∨ last = ".." then .error .isADirectory
        else if maxNameBytes < last.utf8ByteSize then .error .nameTooLong
        else if (entries.lookup last).any FileTree.isDirectory then .error .isADirectory
        else .ok { fs with root := fs.root.put (parent ++ [last]) (.file content) }
      | some (.file _) => .error .notADirectory
      | none => .error .notFound

/-- The text of the file that a path names. -/
def readText (fs : FileSystem) (path : String) : Except TextError (List Char) :=
  match fs.read path with
  | .error cause => .error (.file cause)
  | .ok bytes =>
    match Text.Utf8.decode? bytes with
    | some cs => .ok cs
    | none => .error .notUtf8

end FileSystem

end LatencyLog
