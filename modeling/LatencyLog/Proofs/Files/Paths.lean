import LatencyLog.Glob.Expand
import Mathlib.Data.List.Basic
import Mathlib.Data.List.Infix

/-!
# The names in a path

A path that is found grows by a step at a time, and what is asked of it are its names. Joining adds the
names of the step and nothing else (`names_join`), whether or not there is a slash already.

Where relative paths start is written `.`, and steps from there leave that out. `trail` is the names of a
path without it, so that a step adds to the trail in every case (`trail_prefix_trail_next`).
-/

namespace LatencyLog

namespace FileSystem

theorem splitOn_append_slash (path more : String) :
    (path ++ "/" ++ more).toList.splitOn '/' = path.toList.splitOn '/' ++ more.toList.splitOn '/' := by
  rw [String.toList_append, String.toList_append, List.append_assoc]
  exact List.splitOn_append_cons_self _ _

theorem names_append_slash (path more : String) :
    names (path ++ "/" ++ more) = names path ++ names more := by
  rw [names, splitOn_append_slash, List.filter_append, List.map_append]
  rfl

theorem names_concat_slash (path : String) : names (path ++ "/") = names path := by
  have h := names_append_slash path ""
  rwa [String.append_empty, show names "" = [] by decide, List.append_nil] at h

/-- A name is a path of one name. -/
theorem names_of_plain {name : String} (hne : name ≠ "") (hslash : '/' ∉ name.toList) :
    names name = [name] := by
  have hlist : name.toList ≠ [] := fun h => hne (String.toList_eq_nil_iff.mp h)
  rw [names, List.splitOn_eq_singleton hslash]
  simp [hlist, String.ofList_toList]

theorem exists_of_endsInSlash {path : String} (h : endsInSlash path = true) :
    ∃ front : String, path = front ++ "/" := by
  have hlast : path.toList.getLast? = some '/' := of_decide_eq_true h
  refine ⟨String.ofList path.toList.dropLast, String.toList_inj.mp ?_⟩
  rw [String.toList_append, String.toList_ofList]
  exact (List.dropLast_append_getLast? _ hlast).symm

theorem isAbsolute_append {path : String} (h : isAbsolute path = true) (more : String) :
    isAbsolute (path ++ more) = true := by
  have hhead : path.toList.head? = some '/' := of_decide_eq_true h
  refine decide_eq_true ?_
  rw [String.toList_append, List.head?_append, hhead]
  rfl

/-- Only slashes are no names. -/
theorem eq_empty_of_names_eq_nil {path : String} (hnames : names path = [])
    (hrelative : isAbsolute path = false) : path = "" := by
  refine String.toList_eq_nil_iff.mp ?_
  cases hlist : path.toList with
  | nil => rfl
  | cons c cs =>
    have hc : c ≠ '/' := by
      rintro rfl
      rw [isAbsolute, hlist] at hrelative
      cases hrelative
    obtain ⟨piece, pieces, hpieces⟩ := List.exists_cons_of_ne_nil (List.splitOn_ne_nil '/' cs)
    rw [names, hlist, List.splitOn_cons_eq_if_modifyHead, if_neg (by simpa using hc), hpieces] at hnames
    simp at hnames

end FileSystem

namespace Glob

open FileSystem

theorem names_join (path name : String) : names (join path name) = names path ++ names name := by
  unfold join
  split
  · rename_i hslash
    obtain ⟨front, rfl⟩ := exists_of_endsInSlash hslash
    rw [names_append_slash, names_concat_slash]
  · exact names_append_slash path name

theorem isAbsolute_join {path : String} (h : isAbsolute path = true) (name : String) :
    isAbsolute (join path name) = true := by
  unfold join
  split
  · exact isAbsolute_append h _
  · exact isAbsolute_append (isAbsolute_append h _) _

/-! ## Trails -/

/-- The names of a path, seen from where relative paths start. -/
def trail (path : String) : List String := if isHere path then [] else names path

theorem isHere_iff {path : String} :
    isHere path = true ↔
      isAbsolute path = false ∧ names path ≠ [] ∧ ∀ name ∈ names path, name = "." := by
  simp [isHere, and_assoc]

theorem not_isHere_join {path : String} (h : isHere path = false) (name : String) :
    isHere (join path name) = false := by
  rw [Bool.eq_false_iff, Ne, isHere_iff] at h ⊢
  rintro ⟨habsolute, _, hdots⟩
  rw [names_join] at hdots
  refine h ⟨?_, ?_, fun n hn => hdots n (List.mem_append_left _ hn)⟩
  · rw [Bool.eq_false_iff]
    intro hpath
    rw [isAbsolute_join hpath] at habsolute
    cases habsolute
  · intro hnil
    rcases Bool.eq_false_or_eq_true (isAbsolute path) with hpath | hpath
    · rw [isAbsolute_join hpath] at habsolute
      cases habsolute
    · -- Joined to nothing, a step begins with a slash.
      obtain rfl := eq_empty_of_names_eq_nil hnil hpath
      cases habsolute.symm.trans (isAbsolute_append (show isAbsolute "/" = true by decide) name)

theorem trail_prefix_trail_next (path name : String) : trail path <+: trail (next path name) := by
  cases h : isHere path with
  | true =>
    rw [trail, if_pos h]
    exact List.nil_prefix
  | false =>
    rw [trail, trail, next, h]
    simp only [Bool.false_eq_true, if_false, not_isHere_join h, names_join]
    exact List.prefix_append _ _

theorem trail_next {name : String} (h : EntryName name) (path : String) :
    trail (next path name) = trail path ++ [name] := by
  have hnames := names_of_plain h.not_empty h.no_slash
  cases hhere : isHere path with
  | true =>
    have hname : isHere name = false := by
      rw [Bool.eq_false_iff, Ne, isHere_iff, hnames]
      rintro ⟨_, _, hdot⟩
      exact h.not_dot (hdot name (List.mem_singleton_self _))
    rw [trail, trail, next, hhere]
    simp only [if_true, hname, hnames, Bool.false_eq_true, if_false, List.nil_append]
  | false =>
    rw [trail, trail, next, hhere]
    simp only [Bool.false_eq_true, if_false, not_isHere_join hhere, names_join, hnames]

end Glob

end LatencyLog
