import LatencyLog.Proofs.Files.Paths
import LatencyLog.Proofs.Files.Writing
import LatencyLog.Proofs.OneByOne
import Mathlib.Data.String.Basic

/-!
# The order of what a pattern finds

A directory lists its entries in the order of the names (`sorted_listing`), however they are kept, and leaves
none out that a step could lead to (`lookup_listing`). A pattern that goes down one directory with each
component then finds paths in the order of their names, the first name first: two paths part at a wildcard,
and there the entry of the one came before that of the other. What is below a directory is in this order too,
since the directory comes before it (`inOrder_below`). So a `**` does no harm at the end of a pattern, nor in
front of its last component, which takes some of what is below and leaves the others (`paths_in_order`).

This is not said of two kinds of patterns. With more than one component behind `**`, what these find from a
directory stands in front of what they find further down, whatever the names. And a wildcard that stands for
`..` and `.` has them in this order and before all entries.
-/

namespace LatencyLog

namespace FileTree

/-! ## Listings -/

theorem sorted_insertEntry (name : String) (tree : FileTree) {es : List (String × FileTree)}
    (h : es.Pairwise fun e f => e.1 < f.1) :
    (insertEntry name tree es).Pairwise fun e f => e.1 < f.1 := by
  induction es with
  | nil => exact List.pairwise_singleton _ _
  | cons d es ih =>
    obtain ⟨n, t⟩ := d
    obtain ⟨hfirst, hrest⟩ := List.pairwise_cons.mp h
    rw [insertEntry]
    split
    case isTrue hlt =>
      refine List.pairwise_cons.mpr ⟨fun e he => ?_, h⟩
      rcases List.mem_cons.mp he with rfl | he
      · exact hlt
      · exact lt_trans hlt (hfirst e he)
    case isFalse hge =>
      split
      case isTrue heq =>
        subst heq
        exact List.pairwise_cons.mpr ⟨hfirst, hrest⟩
      case isFalse hne =>
        refine List.pairwise_cons.mpr ⟨fun e he => ?_, ih hrest⟩
        rcases mem_insertEntry he with rfl | he
        · exact lt_of_le_of_ne (not_lt.mp hge) (Ne.symm hne)
        · exact hfirst e he

/-- **A directory is listed in the order of the names**, each of them once. -/
theorem sorted_listing (es : List (String × FileTree)) :
    (listing es).Pairwise fun e f => e.1 < f.1 := by
  induction es with
  | nil => exact .nil
  | cons d es ih =>
    obtain ⟨name, tree⟩ := d
    rw [listing]
    split
    · exact sorted_insertEntry name tree ih
    · exact ih

theorem entryName_of_mem_listing {es : List (String × FileTree)} {e : String × FileTree}
    (h : e ∈ listing es) : EntryName e.1 := by
  induction es with
  | nil => cases h
  | cons d es ih =>
    obtain ⟨name, tree⟩ := d
    rw [listing] at h
    split at h
    case isTrue hname =>
      rcases mem_insertEntry h with rfl | h
      · exact hname
      · exact ih h
    case isFalse => exact ih h

/-- **What is listed under a name is what the name leads to.** -/
theorem lookup_listing {name : String} (h : EntryName name) (es : List (String × FileTree)) :
    (listing es).lookup name = es.lookup name := by
  induction es with
  | nil => rfl
  | cons d es ih =>
    obtain ⟨n, t⟩ := d
    rw [listing]
    by_cases hname : name = n
    · subst hname
      rw [if_pos h, lookup_insertEntry_self, List.lookup_cons_self]
    · rw [List.lookup_cons, show (name == n) = false from beq_eq_false_iff_ne.mpr hname]
      split
      · rw [lookup_insertEntry_of_ne hname, ih]
      · exact ih

end FileTree

namespace Glob

/-! ## Searches -/

theorem forall₂_bind_iff {f : Found → Except ListingError (List Found)} {search : Search}
    {parts : List (List Found)} :
    List.Forall₂ (fun (s : Except ListingError Found) part => s.bind f = .ok part) search parts ↔
      ∃ here, search = here.map .ok ∧ List.Forall₂ (fun e part => f e = .ok part) here parts := by
  constructor
  · intro h
    induction h with
    | nil => exact ⟨[], rfl, .nil⟩
    | @cons s part search parts hpart h ih =>
      obtain ⟨here, rfl, hhere⟩ := ih
      cases s with
      | error e => cases hpart
      | ok e => exact ⟨e :: here, rfl, .cons hpart hhere⟩
  · rintro ⟨here, rfl, hhere⟩
    exact List.forall₂_map_left_iff.mpr hhere

/-- **A search has a result if it meets no failure** and can go on from each of its finds. Then the result
is made of what is found from there. -/
theorem goOn_eq_ok_iff {f : Found → Except ListingError (List Found)} {search : Search}
    {found : List Found} :
    goOn f search = .ok found ↔ ∃ here parts, search = here.map .ok ∧
      List.Forall₂ (fun e part => f e = .ok part) here parts ∧ parts.flatten = found := by
  rw [goOn]
  constructor
  · intro h
    cases hparts : search.mapM (fun found : Except ListingError Found => found.bind f) with
    | error e =>
      rw [hparts] at h
      cases h
    | ok parts =>
      rw [hparts] at h
      obtain ⟨here, hsearch, hhere⟩ := forall₂_bind_iff.mp (mapM_eq_ok_iff.mp hparts)
      exact ⟨here, parts, hsearch, hhere, Except.ok.inj h⟩
  · rintro ⟨here, parts, hsearch, hhere, rfl⟩
    rw [mapM_eq_ok_iff.mpr (forall₂_bind_iff.mpr ⟨here, hsearch, hhere⟩)]
    rfl

theorem map_ok_injective : Function.Injective (List.map (Except.ok : Found → Except ListingError Found)) :=
  List.map_injective_iff.mpr fun _ _ => Except.ok.inj

theorem goOn_map_ok_iff {f : Found → Except ListingError (List Found)} {here found : List Found} :
    goOn f (here.map .ok) = .ok found ↔
      ∃ parts, List.Forall₂ (fun e part => f e = .ok part) here parts ∧ parts.flatten = found := by
  rw [goOn_eq_ok_iff]
  constructor
  · rintro ⟨here', parts, hhere, h⟩
    obtain rfl := map_ok_injective hhere
    exact ⟨parts, h⟩
  · rintro ⟨parts, h⟩
    exact ⟨here, parts, rfl, h⟩

theorem goOn_ok_self (here : List Found) : goOn (fun e => .ok [e]) (here.map .ok) = .ok here := by
  refine goOn_map_ok_iff.mpr ⟨here.map fun e => [e], ?_, ?_⟩
  · exact List.forall₂_map_right_iff.mpr (List.forall₂_same.mpr fun _ _ => rfl)
  · exact List.flatMap_singleton' here

/-! ## Order -/

/-- Finds in the order of their names, all of them below a path. -/
structure InOrder (path : String) (found : List Found) : Prop where
  below : ∀ e ∈ found, trail path <+: trail e.path
  sorted : found.Pairwise fun e f => trail e.path < trail f.path

theorem lt_of_prefixes {front : List String} {m n : String} (h : m < n) {xs ys : List String}
    (hxs : front ++ [m] <+: xs) (hys : front ++ [n] <+: ys) : xs < ys := by
  obtain ⟨xs', rfl⟩ := hxs
  obtain ⟨ys', rfl⟩ := hys
  rw [List.append_assoc, List.append_assoc]
  exact List.append_left_lt (List.cons_lt_cons_iff.mpr (Or.inl h))

/-- What has names more comes later. -/
theorem lt_of_prefix_concat {front : List String} {n : String} {xs : List String}
    (h : front ++ [n] <+: xs) : front < xs := by
  obtain ⟨xs', rfl⟩ := h
  rw [List.append_assoc]
  calc front = front ++ [] := (List.append_nil front).symm
    _ < front ++ ([n] ++ xs') := List.append_left_lt (List.nil_lt_cons n xs')

theorem inOrder_nil (path : String) : InOrder path [] := ⟨fun _ h => absurd h List.not_mem_nil, .nil⟩

theorem inOrder_single {path : String} {e : Found} (h : trail path <+: trail e.path) :
    InOrder path [e] :=
  ⟨List.forall_mem_singleton.mpr h, List.pairwise_singleton _ _⟩

theorem InOrder.next {path name : String} {found : List Found} (h : InOrder (next path name) found) :
    InOrder path found :=
  ⟨fun e he => (trail_prefix_trail_next path name).trans (h.below e he), h.sorted⟩

theorem InOrder.sublist {path : String} {found kept : List Found} (h : InOrder path found)
    (hkept : kept.Sublist found) : InOrder path kept :=
  ⟨fun e he => h.below e (hkept.subset he), h.sorted.sublist hkept⟩

theorem exists_entry_of_mem {path : String} {es : List (String × FileTree)} {parts : List (List Found)}
    (h : List.Forall₂ (fun e part => InOrder (next path e.1) part) es parts) {x : Found}
    (hx : x ∈ parts.flatten) : ∃ e ∈ es, trail (next path e.1) <+: trail x.path := by
  induction h with
  | nil => cases hx
  | @cons e part es parts hpart h ih =>
    rw [List.flatten_cons, List.mem_append] at hx
    rcases hx with hx | hx
    · exact ⟨e, List.mem_cons_self .., hpart.below x hx⟩
    · obtain ⟨e', he', hprefix⟩ := ih hx
      exact ⟨e', List.mem_cons_of_mem _ he', hprefix⟩

/-- What is found below one entry after the other is in order, as the entries are. -/
theorem inOrder_flatten {path : String} {es : List (String × FileTree)}
    (sorted : es.Pairwise fun e f => e.1 < f.1) (named : ∀ e ∈ es, EntryName e.1)
    {parts : List (List Found)}
    (h : List.Forall₂ (fun e part => InOrder (next path e.1) part) es parts) :
    InOrder path parts.flatten := by
  constructor
  · intro x hx
    obtain ⟨e, _, hprefix⟩ := exists_entry_of_mem h hx
    exact (trail_prefix_trail_next path e.1).trans hprefix
  · induction h with
    | nil => exact .nil
    | @cons e part es parts hpart h ih =>
      obtain ⟨hfirst, sorted⟩ := List.pairwise_cons.mp sorted
      obtain ⟨hname, named⟩ := List.forall_mem_cons.mp named
      rw [List.flatten_cons, List.pairwise_append]
      refine ⟨hpart.sorted, ih sorted named, fun x hx y hy => ?_⟩
      obtain ⟨f, hf, hy⟩ := exists_entry_of_mem h hy
      have hx := hpart.below x hx
      rw [trail_next hname] at hx
      rw [trail_next (named f hf)] at hy
      exact lt_of_prefixes (hfirst f hf) hx hy

/-! ## What is below a directory -/

/-- The finds of a search over entries are those of one entry after the other. -/
theorem exists_parts_of_flatMap {α : Type} {search : α → Search} {es : List α} {found : List Found}
    (h : es.flatMap search = found.map .ok) :
    ∃ parts, List.Forall₂ (fun e part => search e = part.map .ok) es parts ∧ parts.flatten = found := by
  induction es generalizing found with
  | nil => exact ⟨[], .nil, (List.map_eq_nil_iff.mp h.symm).symm⟩
  | cons e es ih =>
    obtain ⟨part, rest, rfl, hpart, hrest⟩ := List.map_eq_append_iff.mp h.symm
    obtain ⟨parts, hparts, rfl⟩ := ih hrest.symm
    exact ⟨part :: parts, .cons hpart.symm hparts, rfl⟩

/-- **What is below a directory is in order**, and behind the directory. By induction on the tree: an entry
is followed by what is below it, and that by the next entry. -/
theorem inOrder_below {path : String} {tree : FileTree} {found : List Found}
    (h : below path tree = found.map .ok) :
    InOrder path found ∧ ∀ e ∈ found, trail path < trail e.path := by
  induction path, tree using below.induct generalizing found with
  | case1 path content =>
    rw [below_file] at h
    obtain rfl := List.map_eq_nil_iff.mp h.symm
    exact ⟨inOrder_nil path, fun _ h => absurd h List.not_mem_nil⟩
  | case2 path es cause hfault =>
    rw [below_directory_of_fault hfault] at h
    obtain ⟨_, _, _, herror, _⟩ := List.map_eq_cons_iff.mp h.symm
    cases herror
  | case3 path es hfault ih =>
    rw [below_directory hfault] at h
    obtain ⟨parts, hparts, rfl⟩ := exists_parts_of_flatMap h
    have hinOrder : ∀ e ∈ FileTree.listing es, ∀ part : List Found,
        .ok (entryAt path e) :: below (next path e.1) e.2 = part.map .ok →
          InOrder (next path e.1) part := by
      intro e he part hpart
      obtain ⟨_, rest, rfl, hfirst, hrest⟩ := List.map_eq_cons_iff.mp hpart.symm
      cases hfirst
      obtain ⟨hrest, hbehind⟩ := ih e he hrest.symm
      exact ⟨List.forall_mem_cons.mpr ⟨List.prefix_refl _, hrest.below⟩,
        List.pairwise_cons.mpr ⟨hbehind, hrest.sorted⟩⟩
    have hparts : List.Forall₂ (fun e part => InOrder (next path e.1) part) (FileTree.listing es) parts :=
      ((List.forall₂_and_left _ _).mpr ⟨fun _ he => he, hparts⟩).imp
        fun e part h => hinOrder e h.1 part h.2
    refine ⟨inOrder_flatten (FileTree.sorted_listing es) (fun _ => FileTree.entryName_of_mem_listing)
      hparts, fun x hx => ?_⟩
    obtain ⟨e, he, hprefix⟩ := exists_entry_of_mem hparts hx
    rw [trail_next (FileTree.entryName_of_mem_listing he)] at hprefix
    exact lt_of_prefix_concat hprefix

theorem sublist_of_parts {found : List Found} {parts : List (List Found)}
    (h : List.Forall₂ (fun e part => part.Sublist [e]) found parts) : parts.flatten.Sublist found := by
  induction h with
  | nil => exact .slnil
  | cons hpart _ ih => exact hpart.append ih

/-! ## Components -/

variable {fs : FileSystem} {rest : List Component} {here : Found} {found : List Found}

/-- Some of what is below a directory, taken as it comes, is in order. -/
theorem inOrder_goOn_below {f : Found → Except ListingError (List Found)}
    (hf : ∀ e part, f e = .ok part → part.Sublist [e]) (h : goOn f here.below = .ok found) :
    InOrder here.path found := by
  obtain ⟨all, parts, hall, hparts, rfl⟩ := goOn_eq_ok_iff.mp h
  have hinOrder : InOrder here.path all := by
    unfold Found.below at hall
    cases htree : here.tree with
    | none =>
      rw [htree] at hall
      obtain rfl := List.map_eq_nil_iff.mp hall.symm
      exact inOrder_nil _
    | some tree =>
      rw [htree] at hall
      exact (inOrder_below hall).1
  exact hinOrder.sublist (sublist_of_parts (hparts.imp hf))

theorem step_eq (fs : FileSystem) (here : Found) (name : String) :
    step fs here name = [] ∨ step fs here name = [look fs (next here.path name)] := by
  unfold step
  dsimp only
  generalize (if name = "." ∨ name = ".." then here.isDirectory
    else (look fs (next here.path name)).tree.isSome) = isThere
  cases isThere with
  | false => exact Or.inl rfl
  | true => exact Or.inr rfl

/-- A name leads to one path, or to none. -/
theorem expand_name {pieces : List Piece} {name : String} (hname : name? pieces = some name)
    (h : expand fs (.named pieces :: rest) here = .ok found) :
    found = [] ∨ expand fs rest (look fs (next here.path name)) = .ok found := by
  rw [expand, hname] at h
  obtain ⟨parts, hparts, rfl⟩ := goOn_map_ok_iff.mp h
  rcases step_eq fs here name with hstep | hstep
  · rw [hstep] at hparts
    rw [List.forall₂_nil_left_iff.mp hparts]
    exact Or.inl rfl
  · rw [hstep] at hparts
    obtain ⟨part, parts, hpart, hnone, rfl⟩ := List.forall₂_cons_left_iff.mp hparts
    rw [List.forall₂_nil_left_iff.mp hnone, List.flatten_cons, List.flatten_nil, List.append_nil]
    exact Or.inr hpart

/-- What a wildcard goes through are the entries of a directory, in their order. -/
theorem goOn_entries {listed : List Found} (h : goOn (fun e => .ok [e]) (entries here) = .ok listed) :
    listed = [] ∨ ∃ es, listed = (FileTree.listing es).map (entryAt here.path) := by
  unfold entries at h
  split at h
  case h_2 =>
    cases h
    exact Or.inl rfl
  case h_1 es htree =>
    unfold entriesAt at h
    split at h
    case h_1 => cases h
    case h_2 =>
      refine Or.inr ⟨es, ?_⟩
      rw [goOn_ok_self] at h
      exact (Except.ok.inj h).symm

/-- The pieces stand for one of the names `.` and `..`, which are not among the entries of a directory. -/
def AcceptsDots (pieces : List Piece) : Prop :=
  pieces.head? = some (.char '.') ∧ ∃ name ∈ ["..", "."], accepts pieces name.toList = true

instance : DecidablePred AcceptsDots := fun _ => inferInstanceAs (Decidable (_ ∧ _))

theorem dots_eq_nil {pieces : List Piece} (h : ¬ AcceptsDots pieces) : dots fs here pieces = [] := by
  unfold dots
  split
  case isFalse => rfl
  case isTrue hfirst =>
    have hnone : ["..", "."].filter (fun name => accepts pieces name.toList) = [] :=
      List.filter_eq_nil_iff.mpr fun name hname haccepts => h ⟨hfirst.2, name, hname, haccepts⟩
    rw [hnone, List.map_nil]

/-- A wildcard leads to entries of a directory, one after the other. -/
theorem expand_wildcard {pieces : List Piece} (hname : name? pieces = none)
    (hdots : ¬ AcceptsDots pieces)
    (h : expand fs (.named pieces :: rest) here = .ok found) :
    found = [] ∨ ∃ es es' parts, es'.Sublist (FileTree.listing es) ∧
      List.Forall₂ (fun e part => expand fs rest (entryAt here.path e) = .ok part) es' parts ∧
      parts.flatten = found := by
  rw [expand, hname] at h
  dsimp only at h
  cases hlisted : goOn (fun e => .ok [e]) (entries here) with
  | error e =>
    rw [hlisted] at h
    cases h
  | ok listed =>
    rw [hlisted, dots_eq_nil hdots] at h
    obtain ⟨parts, hparts, rfl⟩ := goOn_map_ok_iff.mp h
    rcases goOn_entries hlisted with rfl | ⟨es, rfl⟩
    · rw [List.forall₂_nil_left_iff.mp hparts]
      exact Or.inl rfl
    · rw [List.nil_append, List.filter_map] at hparts
      exact Or.inr ⟨es, _, parts, List.filter_sublist, List.forall₂_map_left_iff.mp hparts, rfl⟩

/-- Components that can be followed in order: wildcards stand for entries only, and behind `**` there is
at most one component. Several `**` in a row are one. -/
def Orderly : List Component → Prop
  | [] => True
  | .named pieces :: rest => ((name? pieces).isSome = true ∨ ¬ AcceptsDots pieces) ∧ Orderly rest
  | [.directories] => True
  | .directories :: .named _ :: rest => rest = []
  | .directories :: .directories :: rest => Orderly (.directories :: rest)

instance decidableOrderly : DecidablePred Orderly
  | [] => isTrue trivial
  | .named _ :: rest => @instDecidableAnd _ _ inferInstance (decidableOrderly rest)
  | [.directories] => isTrue trivial
  | .directories :: .named _ :: rest => inferInstanceAs (Decidable (rest = []))
  | .directories :: .directories :: rest => decidableOrderly (.directories :: rest)

/-- **Components find in the order of the names.** -/
theorem expand_in_order {components : List Component} (horderly : Orderly components)
    (h : expand fs components here = .ok found) : InOrder here.path found := by
  induction components using Orderly.induct generalizing here found with
  | case1 =>
    cases h
    exact inOrder_single (List.prefix_refl _)
  | case2 pieces rest ih =>
    obtain ⟨hpieces, hrest⟩ := horderly
    cases hname : name? pieces with
    | some name =>
      rcases expand_name hname h with rfl | h
      · exact inOrder_nil _
      · exact (ih hrest h).next
    | none =>
      have hdots : ¬ AcceptsDots pieces := by
        rcases hpieces with hpieces | hpieces
        · rw [hname] at hpieces
          cases hpieces
        · exact hpieces
      rcases expand_wildcard hname hdots h with rfl | ⟨es, es', parts, hsub, hparts, rfl⟩
      · exact inOrder_nil _
      · exact inOrder_flatten ((FileTree.sorted_listing es).sublist hsub)
          (fun e he => FileTree.entryName_of_mem_listing (hsub.subset he))
          (hparts.imp fun e part h => ih hrest h)
  | case3 =>
    refine inOrder_goOn_below (fun e part hpart => ?_) h
    cases hpart
    split
    · exact List.Sublist.refl _
    · exact List.nil_sublist _
  | case4 pieces rest =>
    obtain rfl : rest = [] := horderly
    refine inOrder_goOn_below (fun e part hpart => ?_) h
    split at hpart
    · cases hpart
      exact List.Sublist.refl _
    · cases hpart
      exact List.nil_sublist _
  | case5 rest ih =>
    rw [expand] at h
    exact ih horderly h

/-! ## Patterns -/

/-- The components of the pattern can be followed in order. -/
def Pattern.Orderly (p : Pattern) : Prop := Glob.Orderly p.components

instance : DecidablePred Pattern.Orderly := fun p => decidableOrderly p.components

/-- **The paths that a pattern finds are in the order of their names.** -/
theorem Pattern.paths_in_order {p : Pattern} (hp : p.Orderly)
    {paths : List String} (h : p.paths fs = .ok paths) :
    paths.Pairwise fun path other => trail path < trail other := by
  unfold Pattern.paths at h
  dsimp only at h
  cases hfound : expand fs p.components (look fs (if p.absolute then "/" else ".")) with
  | error e =>
    rw [hfound] at h
    cases h
  | ok found =>
    rw [hfound] at h
    obtain rfl := Except.ok.inj h
    have hsorted := (expand_in_order hp hfound).sorted
    exact List.pairwise_map.mpr (hsorted.filter _)

theorem paths_in_order {text : String} {p : Pattern}
    (hread : Pattern.read? text = .ok p) (hp : p.Orderly) {found : List String}
    (h : paths fs text = .ok found) :
    found.Pairwise fun path other => trail path < trail other := by
  rw [paths, hread] at h
  dsimp only at h
  cases hpaths : p.paths fs with
  | error e =>
    rw [hpaths] at h
    cases h
  | ok paths =>
    rw [hpaths] at h
    cases h
    exact Pattern.paths_in_order hp hpaths

end Glob

end LatencyLog
