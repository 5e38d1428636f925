import LatencyLog.Proofs.Files.Writing

/-!
# Why a file cannot be read

A walk goes from place to place (`Goes`) until it stops, and there are four things it can stop at
(`Stops`): a name that is not in its directory, one that is longer than a name can be, a file where a
directory should be, and a place where there is nothing. A walk fails with the cause of the first stop
(`walk_eq_error_iff`). If it comes to an end, what it has come to may still be a directory, which is found
when it is opened to be read.
-/

namespace LatencyLog.FileSystem

open FileTree

/-- What keeps a walk from taking a step. -/
inductive Stops (root : FileTree) (place : List String) : (step : String) → FileError → Prop where
  | missing {es : List (String × FileTree)} {step : String} (here : root.at? place = some (directory es))
    (not_dots : step ≠ "." ∧ step ≠ "..") (short : step.utf8ByteSize ≤ maxNameBytes)
    (absent : es.lookup step = none) : Stops root place step .notFound
  | tooLong {es : List (String × FileTree)} {step : String} (here : root.at? place = some (directory es))
    (not_dots : step ≠ "." ∧ step ≠ "..") (long : maxNameBytes < step.utf8ByteSize) :
    Stops root place step .nameTooLong
  | belowFile {content : List UInt8} {step : String} (here : root.at? place = some (file content)) :
    Stops root place step .notADirectory
  /-- Only where a walk starts can there be nothing. -/
  | nowhere {step : String} (here : root.at? place = none) : Stops root place step .notFound

variable {root : FileTree} {place there : List String} {step : String} {steps more : List String}
  {cause : FileError}

theorem goes_or_stops (root : FileTree) (place : List String) (step : String) :
    (∃ next, Goes root place step next) ∨ ∃ cause, Stops root place step cause := by
  cases here : root.at? place with
  | none => exact Or.inr ⟨_, .nowhere here⟩
  | some tree =>
    cases tree with
    | file content => exact Or.inr ⟨_, .belowFile here⟩
    | directory es =>
      by_cases hdot : step = "."
      · exact hdot ▸ Or.inl ⟨_, .stay here⟩
      by_cases hdots : step = ".."
      · exact hdots ▸ Or.inl ⟨_, .up here⟩
      rcases Nat.lt_or_ge maxNameBytes step.utf8ByteSize with hlong | hshort
      · exact Or.inr ⟨_, .tooLong here ⟨hdot, hdots⟩ hlong⟩
      cases hentry : es.lookup step with
      | none => exact Or.inr ⟨_, .missing here ⟨hdot, hdots⟩ hshort hentry⟩
      | some sub => exact Or.inl ⟨_, .down here ⟨hdot, hdots⟩ hshort (by rw [hentry]; rfl)⟩

theorem Stops.walk_cons (h : Stops root place step cause) :
    walk root place (step :: steps) = .error cause := by
  cases h with
  | missing here not_dots short absent =>
    rw [walk, here]
    dsimp only
    rw [if_neg not_dots.1, if_neg not_dots.2, if_neg (Nat.not_lt.mpr short), absent]
  | tooLong here not_dots long =>
    rw [walk, here]
    dsimp only
    rw [if_neg not_dots.1, if_neg not_dots.2, if_pos long]
  | belowFile here => rw [walk, here]
  | nowhere here => rw [walk, here]

/-- **A walk fails with the cause of its first stop.** -/
theorem walk_eq_error_iff :
    walk root place steps = .error cause ↔ ∃ front step rest there,
      steps = front ++ step :: rest ∧ walk root place front = .ok there ∧
        Stops root there step cause := by
  constructor
  · intro h
    induction steps generalizing place with
    | nil => cases h
    | cons step steps ih =>
      rcases goes_or_stops root place step with ⟨next, hgoes⟩ | ⟨cause', hstops⟩
      · rw [hgoes.walk_cons] at h
        obtain ⟨front, last, rest, there, rfl, hwalk, hstops⟩ := ih h
        exact ⟨step :: front, last, rest, there, rfl, hgoes.walk_cons.trans hwalk, hstops⟩
      · rw [hstops.walk_cons] at h
        cases h
        exact ⟨[], step, steps, place, rfl, rfl, hstops⟩
  · rintro ⟨front, step, rest, there, rfl, hwalk, hstops⟩
    rw [walk_append hwalk, hstops.walk_cons]

/-- Why the file of a path cannot be read. -/
inductive Unreadable (fs : FileSystem) (path : String) : FileError → Prop where
  /-- The text is no path. -/
  | fault {cause : FileError} (fault : fault? path = some cause) : Unreadable fs path cause
  /-- The path leads on from where it cannot. -/
  | stopped {cause : FileError} {front rest there : List String} {step : String}
    (sound : fault? path = none) (steps_eq : FileSystem.steps path = front ++ step :: rest)
    (walk : FileSystem.walk fs.root (fs.start path) front = .ok there)
    (stops : Stops fs.root there step cause) : Unreadable fs path cause
  | nowhere {there : List String} (place : fs.place path = .ok there)
    (here : fs.root.at? there = none) : Unreadable fs path .notFound
  /-- A directory can be opened, and not be read. -/
  | directory {there : List String} {es : List (String × FileTree)} (place : fs.place path = .ok there)
    (here : fs.root.at? there = some (FileTree.directory es)) : Unreadable fs path .isADirectory

variable {fs : FileSystem} {path : String}

theorem place_of_fault (h : fault? path = some cause) : fs.place path = .error cause := by
  rw [FileSystem.place, h]

theorem place_of_sound (h : fault? path = none) :
    fs.place path = walk fs.root (fs.start path) (FileSystem.steps path) := by
  rw [FileSystem.place, h]

theorem read_of_place (h : fs.place path = .ok there) :
    fs.read path = match fs.root.at? there with
      | some (file content) => .ok content
      | some (directory _) => .error .isADirectory
      | none => .error .notFound := by
  rw [read, resolve, h]
  simp only [Except.bind]
  cases fs.root.at? there with
  | none => rfl
  | some tree => cases tree <;> rfl

theorem read_of_place_error (h : fs.place path = .error cause) : fs.read path = .error cause := by
  rw [read, resolve, h]
  rfl

/-- **A file is read, or one of these is the cause.** -/
theorem read_eq_error_iff : fs.read path = .error cause ↔ Unreadable fs path cause := by
  constructor
  · intro h
    -- Either the walk fails, or it is what stands at its end.
    cases hplace : fs.place path with
    | error cause' =>
      rw [read_of_place_error hplace] at h
      cases h
      cases hfault : fault? path with
      | some fault =>
        rw [place_of_fault hfault] at hplace
        cases hplace
        exact .fault hfault
      | none =>
        rw [place_of_sound hfault, walk_eq_error_iff] at hplace
        obtain ⟨front, step, rest, there, hsteps, hwalk, hstops⟩ := hplace
        exact .stopped hfault hsteps hwalk hstops
    | ok there =>
      rw [read_of_place hplace] at h
      cases here : fs.root.at? there with
      | none =>
        rw [here] at h
        cases h
        exact .nowhere hplace here
      | some tree =>
        rw [here] at h
        cases tree with
        | file content => cases h
        | directory es =>
          cases h
          exact .directory hplace here
  · intro h
    cases h with
    | fault hfault => exact read_of_place_error (place_of_fault hfault)
    | stopped hsound hsteps hwalk hstops =>
      refine read_of_place_error ((place_of_sound hsound).trans ?_)
      exact walk_eq_error_iff.mpr ⟨_, _, _, _, hsteps, hwalk, hstops⟩
    | nowhere hplace here => rw [read_of_place hplace, here]
    | directory hplace here => rw [read_of_place hplace, here]

end LatencyLog.FileSystem
