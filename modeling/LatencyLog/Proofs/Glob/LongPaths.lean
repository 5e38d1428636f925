import LatencyLog.Proofs.Files.Paths
import LatencyLog.Proofs.Files.Writing
import LatencyLog.Proofs.OneByOne
import Mathlib.Data.String.Basic

/-!
# Paths that grow too long

A pattern can go into a directory and out of it as often as it likes. It is where it was, but its path
has grown. What is found next may have a path that no file can be opened by: an entry is known to be
there all the same, and if it is a directory whose entries are asked for, the search fails
(`paths_of_detour`).

So it takes one directory with nothing in it, and a pattern that could match nothing anyway, for a
search without a result.
-/

namespace LatencyLog

namespace Glob

open FileSystem

/-! ## Reading names -/

/-- The character stands for itself in a pattern. -/
def Plain (c : Char) : Prop := c ≠ '?' ∧ c ≠ '*' ∧ c ≠ '['

instance : DecidablePred Plain := fun c => inferInstanceAs (Decidable (c ≠ '?' ∧ c ≠ '*' ∧ c ≠ '['))

theorem scan?_cons {c : Char} (h : Plain c) (previous : Option Char) (position : Nat) (rest : List Char) :
    scan? previous position (c :: rest) =
      (scan? (some c) (position + 1) rest).map (.char c :: ·) := by
  obtain ⟨hquestion, hstar, hbracket⟩ := h
  rw [scan?]
  · exact hquestion
  · exact fun _ e => absurd e hstar
  · exact fun _ e => absurd e hstar
  · exact hstar
  · exact hbracket

/-- **Plain characters are read as themselves**, whatever can be read behind them. -/
theorem scan?_append {cs : List Char} (h : ∀ c ∈ cs, Plain c) {rest : List Char} {pieces : List Piece}
    (hrest : ∀ previous position, scan? previous position rest = .ok pieces)
    (previous : Option Char) (position : Nat) :
    scan? previous position (cs ++ rest) = .ok (cs.map .char ++ pieces) := by
  induction cs generalizing previous position with
  | nil => exact hrest previous position
  | cons c cs ih =>
    obtain ⟨hc, h⟩ := List.forall_mem_cons.mp h
    rw [List.cons_append, scan?_cons hc, ih h]
    rfl

theorem scan?_nil (previous : Option Char) (position : Nat) : scan? previous position [] = .ok [] := by
  rw [scan?]

theorem scan?_plain {cs : List Char} (h : ∀ c ∈ cs, Plain c) (previous : Option Char) (position : Nat) :
    scan? previous position cs = .ok (cs.map .char) := by
  have hscan := scan?_append h scan?_nil previous position
  rwa [List.append_nil, List.append_nil] at hscan

theorem name?_plain (cs : List Char) : name? (cs.map .char) = some (String.ofList cs) := by
  have hmapM : cs.mapM (fun c => some c) = some cs := by
    simpa using List.mapM_pure (m := Option) (l := cs) (f := id)
  rw [name?, List.mapM_map]
  exact congrArg (Option.map String.ofList) hmapM

/-- The component that a name is. -/
def nameComponent (name : String) : Component := .named (name.toList.map .char)

theorem scan?_name {name : String} (h : ∀ c ∈ name.toList, Plain c) :
    (scan? none 0 name.toList).map Pattern.componentOf = .ok (nameComponent name) := by
  have hnone : Piece.anyDirectories ∉ name.toList.map Piece.char := by simp
  rw [scan?_plain h]
  exact congrArg Except.ok (if_neg hnone)

/-- A component that every entry of a directory matches. -/
def anyEntry : Component := .named [.anySequence]

theorem scan?_star_cons (previous : Option Char) (position : Nat) {rest : List Char}
    (h : ∀ cs, rest ≠ '*' :: cs) :
    scan? previous position ('*' :: rest) =
      (scan? (some '*') (position + 1) rest).map (.anySequence :: ·) := by
  rw [scan?]
  · exact fun cs => h _
  · exact h

theorem scan?_star : (scan? none 0 ['*']).map Pattern.componentOf = .ok anyEntry := by
  rw [scan?_star_cons _ _ (by simp), scan?_nil]
  rfl

theorem scan?_stars (previous : Option Char) (position : Nat) :
    scan? previous position ['/', '*', '/', '*'] =
      .ok [.char '/', .anySequence, .char '/', .anySequence] := by
  have hslash : Plain '/' := by decide
  rw [scan?_cons hslash, scan?_star_cons _ _ (by simp), scan?_cons hslash, scan?_star_cons _ _ (by simp),
    scan?_nil]
  rfl

theorem accepts_anySequence (name : List Char) : accepts [.anySequence] name = true := by
  induction name with
  | nil => rfl
  | cons c name ih => rw [accepts_anySequence_cons, ih, Bool.or_true]

/-! ## Following names -/

variable {fs : FileSystem}

theorem goOn_single (f : Found → Except ListingError (List Found)) (e : Found) :
    goOn f [.ok e] = f e := by
  show ((do let ys ← f e; pure [ys]) : Except ListingError (List (List Found))).map List.flatten = f e
  cases h : f e with
  | error => rfl
  | ok found => exact congrArg Except.ok (List.append_nil found)

theorem goOn_error (f : Found → Except ListingError (List Found)) (e : ListingError) :
    goOn f [.error e] = .error e := rfl

theorem look_of_walk {path : String} {place : List String} {tree : FileTree}
    (hfault : fault? path = none) (hwalk : walk fs.root (fs.start path) (steps path) = .ok place)
    (hplace : fs.root.at? place = some tree) : look fs path = ⟨path, some tree⟩ := by
  rw [look, resolve, FileSystem.place, hfault]
  dsimp only
  rw [hwalk]
  simp only [Except.bind, hplace]
  rfl

theorem expand_there {here : Found} {name path : String} {rest : List Component} {tree : FileTree}
    (hhere : here.isDirectory = true) (hpath : next here.path name = path)
    (hlook : look fs path = ⟨path, some tree⟩) :
    expand fs (nameComponent name :: rest) here = expand fs rest ⟨path, some tree⟩ := by
  have hstep : step fs here name = [⟨path, some tree⟩] := by
    unfold step
    dsimp only
    rw [hpath, hlook, hhere]
    simp
  have hname : name? (name.toList.map .char) = some name := by rw [name?_plain, String.ofList_toList]
  rw [nameComponent, expand, hname]
  dsimp only
  rw [hstep]
  exact goOn_single _ _

theorem expand_anyEntry (rest : List Component) (here : Found) :
    expand fs (anyEntry :: rest) here =
      (goOn (fun e => .ok [e]) (entries here)).bind fun listed =>
        goOn (expand fs rest) (listed.map .ok) := by
  have hname : name? [.anySequence] = none := rfl
  have hdots : dots fs here [.anySequence] = [] := if_neg fun h => nomatch h.2
  have hall : ∀ listed : List Found,
      (listed.filter fun e => accepts [.anySequence] (lastName e.path)) = listed :=
    fun listed => List.filter_eq_self.mpr fun e _ => accepts_anySequence _
  rw [anyEntry, expand, hname]
  simp only [hdots, hall, List.nil_append]
  rfl

/-! ## Paths that lead somewhere -/

/-- A path that leads to a place if it is not too long. It does not only say where relative paths start,
so steps are joined to it. -/
structure Leads (fs : FileSystem) (path : String) (place : List String) : Prop where
  relative : isAbsolute path = false
  open_ended : endsInSlash path = false
  no_zero : '\x00' ∉ path.toList
  goes_on : ∃ name ∈ names path, name ≠ "."
  walk : walk fs.root fs.here (names path) = .ok place

/-- The name of a step: of an entry, or `..`. -/
structure StepName (name : String) : Prop where
  not_empty : name ≠ ""
  no_slash : '/' ∉ name.toList
  no_zero : '\x00' ∉ name.toList

theorem endsInSlash_append {name : String} (h : StepName name) (path : String) :
    endsInSlash (path ++ name) = false := by
  have hlist : name.toList ≠ [] := fun h' => h.not_empty (String.toList_eq_nil_iff.mp h')
  refine decide_eq_false fun hlast => h.no_slash ?_
  rw [String.toList_append, List.getLast?_append_of_ne_nil _ hlist] at hlast
  exact List.mem_of_getLast? hlast

theorem isAbsolute_append_of_ne {path : String} (h : path ≠ "") (more : String) :
    isAbsolute (path ++ more) = isAbsolute path := by
  have hlist : path.toList ≠ [] := fun h' => h (String.toList_eq_nil_iff.mp h')
  obtain ⟨c, cs, hcs⟩ := List.exists_cons_of_ne_nil hlist
  rw [isAbsolute, isAbsolute, String.toList_append, hcs]
  rfl

namespace Leads

variable {path name : String} {place there : List String}

theorem not_here (h : Leads fs path place) : isHere path = false := by
  obtain ⟨name, hname, hdot⟩ := h.goes_on
  rw [Bool.eq_false_iff, Ne, isHere_iff]
  rintro ⟨_, _, hdots⟩
  exact hdot (hdots name hname)

theorem not_empty (h : Leads fs path place) : path ≠ "" := by
  rintro rfl
  obtain ⟨name, hname, _⟩ := h.goes_on
  cases hname

theorem next_eq (h : Leads fs path place) (name : String) : next path name = path ++ "/" ++ name := by
  simp [next, h.not_here, join, h.open_ended]

/-- **A step further.** -/
theorem step (h : Leads fs path place) (hname : StepName name) (hgoes : Goes fs.root place name there) :
    Leads fs (path ++ "/" ++ name) there := by
  have hnames : names (path ++ "/" ++ name) = names path ++ [name] := by
    rw [names_append_slash, names_of_plain hname.not_empty hname.no_slash]
  constructor
  case relative => rw [String.append_assoc, isAbsolute_append_of_ne h.not_empty, h.relative]
  case open_ended => exact endsInSlash_append hname _
  case no_zero => simp [String.toList_append, h.no_zero, hname.no_zero]
  case goes_on =>
    obtain ⟨name', hname', hdot⟩ := h.goes_on
    exact ⟨name', by rw [hnames]; exact List.mem_append_left _ hname', hdot⟩
  case walk => rw [hnames, walk_append h.walk, hgoes.walk_cons, FileSystem.walk]

theorem fault_eq_none (h : Leads fs path place) (hshort : path.utf8ByteSize ≤ maxPathBytes) :
    fault? path = none := by
  rw [fault?, if_neg (by simpa using h.no_zero), if_neg h.not_empty, if_neg (Nat.not_lt.mpr hshort)]

theorem fault_eq_nameTooLong (h : Leads fs path place) (hlong : maxPathBytes < path.utf8ByteSize) :
    fault? path = some .nameTooLong := by
  rw [fault?, if_neg (by simpa using h.no_zero), if_neg h.not_empty, if_pos hlong]

/-- What is seen at the place. -/
theorem look_eq (h : Leads fs path place) (hshort : path.utf8ByteSize ≤ maxPathBytes) {tree : FileTree}
    (htree : fs.root.at? place = some tree) : look fs path = ⟨path, some tree⟩ := by
  have hsteps : steps path = names path := by
    rw [steps, if_neg (by rw [h.open_ended]; decide), List.append_nil]
  have hstart : fs.start path = fs.here := if_neg (by rw [h.relative]; decide)
  refine look_of_walk (h.fault_eq_none hshort) ?_ htree
  rw [hsteps, hstart, h.walk]

end Leads

/-! ## Detours -/

/-- A name of a directory that can be written in a pattern as it is. -/
structure DirectoryName (name : String) : Prop extends EntryName name where
  no_zero : '\x00' ∉ name.toList
  plain : ∀ c ∈ name.toList, Plain c
  short : name.utf8ByteSize ≤ maxNameBytes

/-- The path that goes into a directory and out of it, and then again so often. -/
def detour (name : String) : (again : Nat) → String
  | 0 => name ++ "/" ++ ".."
  | n + 1 => detour name n ++ "/" ++ name ++ "/" ++ ".."

/-- A directory with one empty directory in it, where relative paths start. -/
def oneDirectory (name : String) : FileSystem := ⟨.directory [(name, .empty)], []⟩

variable {d : String} {n : Nat}

theorem stepName (h : DirectoryName d) : StepName d := ⟨h.not_empty, h.no_slash, h.no_zero⟩

theorem stepName_dots : StepName ".." := ⟨by decide, by decide, by decide⟩

theorem at?_oneDirectory (d : String) : (oneDirectory d).root.at? [d] = some .empty := by
  show (List.lookup d [(d, FileTree.empty)]).bind _ = _
  rw [List.lookup_cons_self]
  rfl

theorem goes_in (h : DirectoryName d) : Goes (oneDirectory d).root [] d [d] := by
  refine .down (FileTree.at?_nil _) ⟨h.not_dot, h.not_dots⟩ h.short ?_
  rw [List.lookup_cons_self]
  rfl

theorem goes_out (d : String) : Goes (oneDirectory d).root [d] ".." [] := .up (at?_oneDirectory d)

theorem leads_in (h : DirectoryName d) : Leads (oneDirectory d) d [d] := by
  have hnames := names_of_plain h.not_empty h.no_slash
  constructor
  case relative =>
    refine decide_eq_false fun hhead => h.no_slash (List.mem_of_mem_head? ?_)
    rw [hhead]
    rfl
  case open_ended => simpa using endsInSlash_append (stepName h) ""
  case no_zero => exact h.no_zero
  case goes_on => exact ⟨d, by rw [hnames]; exact List.mem_singleton_self d, h.not_dot⟩
  case walk => rw [hnames]; exact (goes_in h).walk_cons

/-- A detour leads back. -/
theorem leads_detour (h : DirectoryName d) (n : Nat) : Leads (oneDirectory d) (detour d n) [] := by
  induction n with
  | zero => exact (leads_in h).step stepName_dots (goes_out d)
  | succ n ih => exact (ih.step (stepName h) (goes_in h)).step stepName_dots (goes_out d)

theorem size_detour (d : String) (n : Nat) :
    (detour d n).utf8ByteSize + 1 = (n + 1) * (d.utf8ByteSize + 4) := by
  have hslash : "/".utf8ByteSize = 1 := by decide
  have hdots : "..".utf8ByteSize = 2 := by decide
  induction n with
  | zero =>
    rw [detour, String.utf8ByteSize_append, String.utf8ByteSize_append, hslash, hdots]
    omega
  | succ n ih =>
    rw [detour]
    simp only [String.utf8ByteSize_append, hslash, hdots]
    rw [Nat.succ_mul, ← ih]
    omega

/-- The names in a detour. -/
def rounds (name : String) : (again : Nat) → List String
  | 0 => [name, ".."]
  | n + 1 => rounds name n ++ [name, ".."]

/-- One time in and out. -/
theorem expand_round {here : Found} {path : String} (hhere : here.isDirectory = true)
    (hpath : next here.path d = path) (hin : Leads (oneDirectory d) path [d])
    (hshort : (path ++ "/" ++ "..").utf8ByteSize ≤ maxPathBytes) (rest : List Component) :
    expand (oneDirectory d) (nameComponent d :: nameComponent ".." :: rest) here =
      expand (oneDirectory d) rest ⟨path ++ "/" ++ "..", some (oneDirectory d).root⟩ := by
  have hle : path.utf8ByteSize ≤ maxPathBytes := by
    rw [String.utf8ByteSize_append, String.utf8ByteSize_append] at hshort
    omega
  have hout := hin.step stepName_dots (goes_out d)
  have hinside : Found.isDirectory ⟨path, some .empty⟩ = true := rfl
  rw [expand_there hhere hpath (hin.look_eq hle (at?_oneDirectory d)),
    expand_there hinside (hin.next_eq "..") (hout.look_eq hshort (FileTree.at?_nil _))]

/-- **The search is back where it was**, and has a longer path. -/
theorem expand_rounds (h : DirectoryName d) (hshort : (detour d n).utf8ByteSize ≤ maxPathBytes)
    (rest : List Component) :
    expand (oneDirectory d) ((rounds d n).map nameComponent ++ rest) ⟨".", some (oneDirectory d).root⟩ =
      expand (oneDirectory d) rest ⟨detour d n, some (oneDirectory d).root⟩ := by
  have hdirectory : ∀ path, Found.isDirectory ⟨path, some (oneDirectory d).root⟩ = true := fun _ => rfl
  induction n generalizing rest with
  | zero =>
    have hnext : next "." d = d := if_pos (by decide)
    rw [detour] at hshort ⊢
    exact expand_round (hdirectory _) hnext (leads_in h) hshort rest
  | succ n ih =>
    have hbefore : (detour d n).utf8ByteSize ≤ maxPathBytes := by
      simp only [detour, String.utf8ByteSize_append] at hshort
      omega
    have hleads := leads_detour h n
    rw [rounds, List.map_append, List.append_assoc, ih hbefore]
    exact expand_round (hdirectory _) (hleads.next_eq d) (hleads.step (stepName h) (goes_in h)) hshort rest

/-! ## The end of a search -/

/-- Nothing that is found in the directory is listed any more. -/
theorem expand_anyEntry_anyEntry (h : DirectoryName d)
    (hshort : (detour d n).utf8ByteSize ≤ maxPathBytes)
    (hlong : maxPathBytes < (detour d n ++ "/" ++ d).utf8ByteSize) :
    expand (oneDirectory d) [anyEntry, anyEntry] ⟨detour d n, some (oneDirectory d).root⟩ =
      .error ⟨detour d n ++ "/" ++ d, .nameTooLong⟩ := by
  have hleads := leads_detour h n
  have hin := hleads.step (stepName h) (goes_in h)
  have hlist : entries ⟨detour d n, some (oneDirectory d).root⟩ =
      [.ok ⟨detour d n ++ "/" ++ d, some .empty⟩] := by
    have hlisting : FileTree.listing [(d, .empty)] = [(d, .empty)] := if_pos h.toEntryName
    show entriesAt (detour d n) [(d, .empty)] = _
    rw [entriesAt, hleads.fault_eq_none hshort, hlisting]
    show [Except.ok (⟨next (detour d n) d, some .empty⟩ : Found)] = _
    rw [hleads.next_eq]
  have hunlisted : entries ⟨detour d n ++ "/" ++ d, some .empty⟩ =
      [.error ⟨detour d n ++ "/" ++ d, .nameTooLong⟩] := by
    show entriesAt (detour d n ++ "/" ++ d) [] = _
    rw [entriesAt, hin.fault_eq_nameTooLong hlong]
  rw [expand_anyEntry, hlist, goOn_single]
  show goOn (expand (oneDirectory d) [anyEntry]) [.ok _] = _
  rw [goOn_single, expand_anyEntry, hunlisted, goOn_error]
  rfl

/-! ## The pattern -/

theorem detour_succ (d : String) (n : Nat) :
    detour d (n + 1) = detour d n ++ "/" ++ (d ++ "/" ++ "..") := by
  simp only [detour, String.append_assoc]

theorem plain_dots : ∀ c ∈ "..".toList, Plain c := by
  have hdot : Plain '.' := by decide
  exact List.forall_mem_cons.mpr ⟨hdot, List.forall_mem_singleton.mpr hdot⟩

theorem plain_detour (h : DirectoryName d) (n : Nat) : ∀ c ∈ (detour d n).toList, Plain c := by
  have hslash : ∀ c ∈ "/".toList, Plain c := List.forall_mem_singleton.mpr (by decide)
  have hround : ∀ c ∈ (d ++ "/" ++ "..").toList, Plain c := by
    rw [String.toList_append, String.toList_append]
    exact List.forall_mem_append.mpr ⟨List.forall_mem_append.mpr ⟨h.plain, hslash⟩, plain_dots⟩
  induction n with
  | zero => exact hround
  | succ n ih =>
    rw [detour_succ, String.toList_append, String.toList_append]
    exact List.forall_mem_append.mpr ⟨List.forall_mem_append.mpr ⟨ih, hslash⟩, hround⟩

theorem splitOn_detour (h : DirectoryName d) (n : Nat) :
    (detour d n).toList.splitOn '/' = (rounds d n).map String.toList := by
  have hround : (d ++ "/" ++ "..").toList.splitOn '/' = [d.toList, "..".toList] := by
    rw [splitOn_append_slash, List.splitOn_eq_singleton h.no_slash]
    rfl
  induction n with
  | zero => exact hround
  | succ n ih =>
    rw [detour_succ, splitOn_append_slash, ih, hround, rounds, List.map_append]
    rfl

theorem plain_rounds (h : DirectoryName d) (n : Nat) :
    ∀ name ∈ rounds d n, ∀ c ∈ name.toList, Plain c := by
  have hround : ∀ name ∈ [d, ".."], ∀ c ∈ name.toList, Plain c :=
    List.forall_mem_cons.mpr ⟨h.plain, List.forall_mem_singleton.mpr plain_dots⟩
  induction n with
  | zero => exact hround
  | succ n ih => exact List.forall_mem_append.mpr ⟨ih, hround⟩

/-- What the names in a detour are read as, with two wildcards behind them. -/
theorem mapM_rounds (h : DirectoryName d) (n : Nat) (fault : Nat × Fault → PatternError) :
    ((rounds d n).map String.toList ++ [['*'], ['*']]).mapM
        (fun text => ((scan? none 0 text).map Pattern.componentOf).mapError fault) =
      .ok ((rounds d n).map nameComponent ++ [anyEntry, anyEntry]) := by
  have hstar : ((scan? none 0 ['*']).map Pattern.componentOf).mapError fault = .ok anyEntry := by
    rw [scan?_star]
    rfl
  refine mapM_eq_ok_iff.mpr (List.rel_append ?_ (.cons hstar (.cons hstar .nil)))
  refine List.forall₂_map_left_iff.mpr (List.forall₂_map_right_iff.mpr (List.forall₂_same.mpr ?_))
  intro name hname
  rw [scan?_name (plain_rounds h n name hname)]
  rfl

theorem componentTexts_detour (h : DirectoryName d) (n : Nat) :
    Pattern.componentTexts (detour d n ++ "/*/*").toList =
      (rounds d n).map String.toList ++ [['*'], ['*']] := by
  have hslash : detour d n ++ "/*/*" = detour d n ++ "/" ++ "*/*" := by
    rw [String.append_assoc]
    rfl
  have hparts : (detour d n ++ "/*/*").toList.splitOn '/' =
      (rounds d n).map String.toList ++ [['*'], ['*']] := by
    rw [hslash, splitOn_append_slash, splitOn_detour h]
    rfl
  rw [Pattern.componentTexts, hparts]
  refine if_neg ?_
  rw [List.getLast?_append]
  show ¬ some ['*'] = some []
  decide

/-- The components of the pattern are the names in the detour and two wildcards. -/
theorem read?_detour (h : DirectoryName d) (n : Nat) :
    Pattern.read? (detour d n ++ "/*/*") =
      .ok ⟨false, (rounds d n).map nameComponent ++ [anyEntry, anyEntry], false⟩ := by
  have hlist : (detour d n ++ "/*/*").toList = (detour d n).toList ++ ['/', '*', '/', '*'] := by
    rw [String.toList_append]
    rfl
  have habsolute : decide ((detour d n ++ "/*/*").toList.head? = some '/') = false :=
    (isAbsolute_append_of_ne (leads_detour h n).not_empty "/*/*").trans (leads_detour h n).relative
  have hlast : decide ((detour d n ++ "/*/*").toList.getLast? = some '/') = false := by
    rw [hlist, List.getLast?_append]
    rfl
  have horEmpty : Pattern.orEmpty ((rounds d n).map String.toList ++ [['*'], ['*']]) =
      (rounds d n).map String.toList ++ [['*'], ['*']] := if_neg (by simp)
  unfold Pattern.read?
  dsimp only
  rw [habsolute, hlast, hlist, scan?_append (plain_detour h n) scan?_stars, ← hlist]
  simp only [Bool.false_eq_true, if_false, componentTexts_detour h, horEmpty]
  rw [mapM_rounds h]
  rfl

/-- **A search can fail in a directory that matches nothing.** The pattern goes in and out as often as the
length of a path allows, then finds the directory once more and asks for what is in it. -/
theorem paths_of_detour (h : DirectoryName d) (hshort : (detour d n).utf8ByteSize ≤ maxPathBytes)
    (hlong : maxPathBytes < (detour d n ++ "/" ++ d).utf8ByteSize) :
    paths (oneDirectory d) (detour d n ++ "/*/*") =
      .error (.unlisted (detour d n ++ "/*/*") ⟨detour d n ++ "/" ++ d, .nameTooLong⟩) := by
  have hstart : look (oneDirectory d) "." = ⟨".", some (oneDirectory d).root⟩ := by
    have hwalk : walk (oneDirectory d).root [] ["."] = .ok [] := (Goes.stay (FileTree.at?_nil _)).walk_cons
    exact look_of_walk (by decide) hwalk (FileTree.at?_nil _)
  rw [paths, read?_detour h]
  dsimp only
  rw [Pattern.paths]
  simp only [Bool.false_eq_true, if_false, hstart]
  rw [expand_rounds h hshort, expand_anyEntry_anyEntry h hshort hlong]
  rfl

end Glob

end LatencyLog
