import LatencyLog.Files.Tree
import Mathlib.Data.List.Basic

/-!
# Writing a file

Writing puts one file into a tree. What could go wrong is everything else: the directories on the way are
built anew, and a walk through the new tree could end elsewhere. It does not. In the new tree every place
but one holds what it held (`content_at?_put`), so a walk that came to an end still comes to the same end
(`walk_put`), the path leads to the file that was put, and it is read back (`read_write`).

All of it rests on what `write` has looked at before: the place is in a directory that is there, and no
directory stands in it (`Free`).
-/

namespace LatencyLog

namespace FileTree

/-! ## Entries -/

theorem lookup_insertEntry_self (name : String) (tree : FileTree) (es : List (String × FileTree)) :
    (insertEntry name tree es).lookup name = some tree := by
  induction es with
  | nil => simp [insertEntry]
  | cons e es ih =>
    obtain ⟨n, t⟩ := e
    rw [insertEntry]
    split
    · simp
    · split
      · simp
      · rename_i hne
        rw [List.lookup_cons, show (name == n) = false from beq_eq_false_iff_ne.mpr hne]
        exact ih

theorem lookup_insertEntry_of_ne {name other : String} (h : other ≠ name) (tree : FileTree)
    (es : List (String × FileTree)) : (insertEntry name tree es).lookup other = es.lookup other := by
  have hother : (other == name) = false := beq_eq_false_iff_ne.mpr h
  induction es with
  | nil => rw [insertEntry, List.lookup_cons, hother]
  | cons e es ih =>
    obtain ⟨n, t⟩ := e
    rw [insertEntry]
    split
    · rw [List.lookup_cons, hother]
    · split
      · rename_i heq
        subst heq
        rw [List.lookup_cons, List.lookup_cons, hother]
      · rw [List.lookup_cons, List.lookup_cons, ih]

@[simp]
theorem entries_directory (es : List (String × FileTree)) : (directory es).entries = es := rfl

/-! ## Places -/

@[simp]
theorem at?_nil (tree : FileTree) : tree.at? [] = some tree := rfl

theorem at?_cons (name : String) (names : List String) (tree : FileTree) :
    tree.at? (name :: names) = (tree.entries.lookup name).bind (at? names) := rfl

theorem at?_append (names more : List String) (tree : FileTree) :
    tree.at? (names ++ more) = (tree.at? names).bind (at? more) := by
  induction names generalizing tree with
  | nil => rfl
  | cons name names ih =>
    rw [List.cons_append, at?_cons, at?_cons]
    cases tree.entries.lookup name with
    | none => rfl
    | some sub => exact ih sub

/-- What is at a place in a directory is its entry of that name. -/
theorem at?_concat {tree : FileTree} {place : List String} {es : List (String × FileTree)}
    (h : tree.at? place = some (directory es)) (name : String) :
    tree.at? (place ++ [name]) = es.lookup name := by
  rw [at?_append, h, Option.bind_some, at?_cons, entries_directory]
  exact Option.bind_fun_some _

/-- Nothing is below a file. -/
theorem at?_file (content : List UInt8) {names : List String} (h : names ≠ []) :
    (file content).at? names = none := by
  cases names with
  | nil => exact absurd rfl h
  | cons name names => rfl

theorem at?_put_self (tree : FileTree) (names : List String) (new : FileTree) :
    (tree.put names new).at? names = some new := by
  induction names generalizing tree with
  | nil => rfl
  | cons name names ih =>
    rw [put, at?_cons, entries_directory, lookup_insertEntry_self]
    exact ih _

/-- What a file holds; a directory holds no bytes. -/
def content : FileTree → Option (List UInt8)
  | file bytes => some bytes
  | directory _ => none

/-- A place for a file: in a directory that is there, and no directory itself. -/
structure Free (tree : FileTree) (parent : List String) (last : String) : Prop where
  directory_parent : ∃ es, tree.at? parent = some (directory es)
  not_directory : ∀ es, tree.at? (parent ++ [last]) ≠ some (directory es)

variable {tree : FileTree} {parent : List String} {last : String}

theorem Free.of_cons {name : String} (h : tree.Free (name :: parent) last) :
    ∃ es sub, tree = directory es ∧ es.lookup name = some sub ∧ sub.Free parent last := by
  obtain ⟨⟨es, hparent⟩, hold⟩ := h
  cases tree with
  | file bytes => cases hparent
  | directory entries =>
    rw [at?_cons] at hparent
    obtain ⟨sub, hsub, hparent⟩ := Option.bind_eq_some_iff.mp hparent
    refine ⟨entries, sub, rfl, hsub, ⟨es, hparent⟩, fun es' h => hold es' ?_⟩
    rw [List.cons_append, at?_cons, hsub]
    exact h

/-- **Elsewhere everything is as it was.** -/
theorem content_at?_put (h : tree.Free parent last) (bytes : List UInt8) {place : List String}
    (hne : place ≠ parent ++ [last]) :
    ((tree.put (parent ++ [last]) (file bytes)).at? place).map content =
      (tree.at? place).map content := by
  induction parent generalizing tree place with
  | nil =>
    obtain ⟨⟨es, hparent⟩, hold⟩ := h
    cases Option.some.inj hparent
    cases place with
    | nil => rfl
    | cons name names =>
      rw [List.nil_append, put, at?_cons, at?_cons, entries_directory, entries_directory]
      rcases Decidable.em (name = last) with rfl | hname
      · have hnames : names ≠ [] := by
          rintro rfl
          exact hne rfl
        rw [lookup_insertEntry_self, Option.bind_some, put, at?_file bytes hnames]
        cases hsub : es.lookup name with
        | none => rfl
        | some sub =>
          cases sub with
          | file old => rw [Option.bind_some, at?_file old hnames]
          | directory es' =>
            exact absurd ((at?_concat rfl name).trans hsub) (hold es')
      · rw [lookup_insertEntry_of_ne hname]
  | cons first parent ih =>
    obtain ⟨es, sub, rfl, hsub, hfree⟩ := h.of_cons
    cases place with
    | nil => rfl
    | cons name names =>
      rw [List.cons_append, put, at?_cons, at?_cons, entries_directory, entries_directory, hsub,
        Option.getD_some]
      rcases Decidable.em (name = first) with rfl | hname
      · have hnames : names ≠ parent ++ [last] := by
          rintro rfl
          exact hne rfl
        rw [lookup_insertEntry_self, hsub, Option.bind_some, Option.bind_some]
        exact ih hfree hnames
      · rw [lookup_insertEntry_of_ne hname]

/-- A directory is still one, and has an entry where it had one. -/
theorem directory_put (h : tree.Free parent last) (bytes : List UInt8) {place : List String}
    {es : List (String × FileTree)} (hplace : tree.at? place = some (directory es)) :
    ∃ es', (tree.put (parent ++ [last]) (file bytes)).at? place = some (directory es') ∧
      ∀ name, (es.lookup name).isSome = true → (es'.lookup name).isSome = true := by
  have hne : place ≠ parent ++ [last] := by
    rintro rfl
    exact h.not_directory es hplace
  have hcontent := content_at?_put h bytes hne
  rw [hplace] at hcontent
  obtain ⟨new, hnew, hdirectory⟩ := Option.map_eq_some_iff.mp hcontent
  cases new with
  | file _ => cases hdirectory
  | directory es' =>
    refine ⟨es', hnew, fun name hname => ?_⟩
    rw [← at?_concat hplace] at hname
    rw [← at?_concat hnew]
    rcases Decidable.em (place ++ [name] = parent ++ [last]) with heq | hne
    · rw [heq, at?_put_self]
      rfl
    · rw [← Option.isSome_map (f := content), content_at?_put h bytes hne, Option.isSome_map]
      exact hname

end FileTree

namespace FileSystem

open FileTree

variable {root : FileTree} {parent : List String} {last : String}

/-! ## Walks -/

/-- One step from a directory. -/
inductive Goes (root : FileTree) (place : List String) : (step : String) → List String → Prop where
  | stay {es : List (String × FileTree)} (here : root.at? place = some (directory es)) :
    Goes root place "." place
  | up {es : List (String × FileTree)} (here : root.at? place = some (directory es)) :
    Goes root place ".." place.dropLast
  | down {es : List (String × FileTree)} {step : String} (here : root.at? place = some (directory es))
    (not_dots : step ≠ "." ∧ step ≠ "..") (short : step.utf8ByteSize ≤ maxNameBytes)
    (entry : (es.lookup step).isSome = true) : Goes root place step (place ++ [step])

variable {place there : List String} {step : String} {steps more : List String}

theorem Goes.walk_cons {next : List String} (h : Goes root place step next) :
    walk root place (step :: steps) = walk root next steps := by
  cases h with
  | stay here => rw [walk, here]; rfl
  | up here => rw [walk, here]; rfl
  | down here not_dots short entry =>
    obtain ⟨sub, hsub⟩ := Option.isSome_iff_exists.mp entry
    rw [walk, here]
    dsimp only
    rw [if_neg not_dots.1, if_neg not_dots.2, if_neg (Nat.not_lt.mpr short), hsub]

theorem exists_goes_of_walk_cons (h : walk root place (step :: steps) = .ok there) :
    ∃ next, Goes root place step next ∧ walk root next steps = .ok there := by
  rw [walk] at h
  split at h
  case h_2 => cases h
  case h_3 => cases h
  case h_1 es here =>
    split at h
    case isTrue hdot =>
      subst hdot
      exact ⟨_, .stay here, h⟩
    case isFalse hdot =>
      split at h
      case isTrue hdots =>
        subst hdots
        exact ⟨_, .up here, h⟩
      case isFalse hdots =>
        split at h
        case isTrue => cases h
        case isFalse hshort =>
          split at h
          case h_2 => cases h
          case h_1 sub hsub =>
            exact ⟨_, .down here ⟨hdot, hdots⟩ (Nat.le_of_not_lt hshort) (by rw [hsub]; rfl), h⟩

theorem walk_append (h : walk root place steps = .ok there) :
    walk root place (steps ++ more) = walk root there more := by
  induction steps generalizing place with
  | nil =>
    cases h
    rfl
  | cons step steps ih =>
    obtain ⟨next, hgoes, h⟩ := exists_goes_of_walk_cons h
    rw [List.cons_append, hgoes.walk_cons, ih h]

theorem Goes.put (h : root.Free parent last) (bytes : List UInt8) {next : List String}
    (hgoes : Goes root place step next) :
    Goes (root.put (parent ++ [last]) (file bytes)) place step next := by
  cases hgoes with
  | stay here =>
    obtain ⟨es', here', _⟩ := directory_put h bytes here
    exact .stay here'
  | up here =>
    obtain ⟨es', here', _⟩ := directory_put h bytes here
    exact .up here'
  | down here not_dots short entry =>
    obtain ⟨es', here', hentries⟩ := directory_put h bytes here
    exact .down here' not_dots short (hentries _ entry)

/-- **A walk comes to the same end.** -/
theorem walk_put (h : root.Free parent last) (bytes : List UInt8)
    (hwalk : walk root place steps = .ok there) :
    walk (root.put (parent ++ [last]) (file bytes)) place steps = .ok there := by
  induction steps generalizing place with
  | nil => exact hwalk
  | cons step steps ih =>
    obtain ⟨next, hgoes, hwalk⟩ := exists_goes_of_walk_cons hwalk
    rw [(hgoes.put h bytes).walk_cons, ih hwalk]

/-! ## Writing -/

/-- What `write` has seen to when it writes. -/
structure Writes (fs : FileSystem) (path : String) (bytes : List UInt8) (parent : List String)
    (last : String) (files : FileSystem) : Prop where
  fault : fault? path = none
  last_name : (names path).getLast? = some last
  open_ended : endsInSlash path = false
  not_dots : last ≠ "." ∧ last ≠ ".."
  short : last.utf8ByteSize ≤ maxNameBytes
  walk : walk fs.root (fs.start path) (names path).dropLast = .ok parent
  free : fs.root.Free parent last
  files_eq : files = { fs with root := fs.root.put (parent ++ [last]) (file bytes) }

theorem exists_writes {fs files : FileSystem} {path : String} {bytes : List UInt8}
    (h : fs.write path bytes = .ok files) : ∃ parent last, Writes fs path bytes parent last files := by
  unfold write at h
  split at h
  case h_1 => cases h
  case h_2 => cases h
  case h_3 last hfault hlast =>
    cases hwalk : FileSystem.walk fs.root (fs.start path) (names path).dropLast with
    | error e =>
      rw [hwalk] at h
      cases h
    | ok parent =>
      rw [hwalk] at h
      simp only [Except.bind] at h
      split at h
      case h_2 => cases h
      case h_3 => cases h
      case h_1 es hparent =>
        split at h
        case isTrue => cases h
        case isFalse hends =>
          split at h
          case isTrue => cases h
          case isFalse hshort =>
            split at h
            case isTrue => cases h
            case isFalse hold =>
              obtain ⟨hslash, hdot, hdots⟩ : ¬ endsInSlash path = true ∧ ¬ last = "." ∧ ¬ last = ".." := by
                simpa only [not_or] using hends
              refine ⟨parent, last, hfault, hlast, Bool.eq_false_iff.mpr hslash, ⟨hdot, hdots⟩,
                Nat.le_of_not_lt hshort, hwalk, ⟨⟨es, hparent⟩, fun es' hplace => hold ?_⟩,
                (Except.ok.inj h).symm⟩
              rw [(at?_concat hparent last).symm.trans hplace]
              rfl

theorem Writes.place_eq {fs files : FileSystem} {path : String} {bytes : List UInt8}
    (h : Writes fs path bytes parent last files) : files.place path = .ok (parent ++ [last]) := by
  obtain ⟨hfault, hlast, hends, hdots, hshort, hwalk, hfree, rfl⟩ := h
  have hsteps : steps path = (names path).dropLast ++ [last] := by
    rw [steps, if_neg (by rw [hends]; decide), List.append_nil,
      List.dropLast_append_getLast? _ (Option.mem_def.mpr hlast)]
  obtain ⟨es, hparent⟩ := hfree.directory_parent
  obtain ⟨es', hparent', _⟩ := directory_put hfree bytes hparent
  have hnew := at?_put_self fs.root (parent ++ [last]) (file bytes)
  have hgoes : Goes (fs.root.put (parent ++ [last]) (file bytes)) parent last (parent ++ [last]) := by
    refine .down hparent' hdots hshort ?_
    rw [← at?_concat hparent', hnew]
    rfl
  rw [FileSystem.place, hfault, hsteps]
  exact (walk_append (walk_put hfree bytes hwalk)).trans hgoes.walk_cons

/-- **What was written is read.** The path leads to one place, and everywhere else is what was there. -/
theorem read_write {fs files : FileSystem} {path : String} {bytes : List UInt8}
    (h : fs.write path bytes = .ok files) :
    files.here = fs.here ∧ files.read path = .ok bytes ∧
      ∃ place, files.place path = .ok place ∧
        ∀ other ≠ place, (files.root.at? other).map content = (fs.root.at? other).map content := by
  obtain ⟨parent, last, hw⟩ := exists_writes h
  have hplace := hw.place_eq
  have hnew := at?_put_self fs.root (parent ++ [last]) (file bytes)
  have hfree := hw.free
  obtain rfl := hw.files_eq
  refine ⟨rfl, ?_, _, hplace, fun other hne => content_at?_put hfree bytes hne⟩
  rw [read, resolve, hplace]
  simp only [Except.bind, hnew]

end FileSystem

end LatencyLog
