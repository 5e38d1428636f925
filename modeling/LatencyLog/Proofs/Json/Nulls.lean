import LatencyLog.Json.Basic

/-!
# Where the nulls of a value are

A null is told from others by the way to it, step by step from the whole value into members and elements.
`NullAt` is that relation, and the lemmas say what it comes to for what writes values: texts and naturals
have none, a float is one or has none, and those of an object or an array are those of its members or
elements.
-/

namespace LatencyLog.Json

/-- A step into a value. -/
inductive Step where
  /-- To a member with this text between the quotes of its name. -/
  | member (key : List Char)
  | element (index : Nat)

/-- The step to a member by its name. -/
def Step.field (name : String) : Step := .member (escape name.toList)

/-- There is a null at the end of these steps. -/
inductive NullAt : Json → List Step → Prop where
  | here : NullAt null []
  | element {elements : List Json} {index : Nat} {j : Json} {path : List Step}
    (position : elements[index]? = some j) (inside : NullAt j path) :
    NullAt (array elements) (.element index :: path)
  | member {members : List (List Char × Json)} {key : List Char} {j : Json} {path : List Step}
    (position : (key, j) ∈ members) (inside : NullAt j path) :
    NullAt (object members) (.member key :: path)

variable {path : List Step}

@[simp]
theorem nullAt_null : NullAt null path ↔ path = [] := by
  constructor
  · rintro ⟨⟩
    rfl
  · rintro rfl
    exact .here

@[simp]
theorem not_nullAt_ofText (s : String) : ¬ NullAt (ofText s) path := by
  rintro ⟨⟩

@[simp]
theorem not_nullAt_ofNat (n : Nat) : ¬ NullAt (ofNat n) path := by
  rintro ⟨⟩

/-- **A float is null exactly if it is not finite.** -/
@[simp]
theorem nullAt_ofFloat {x : Binary64} : NullAt (ofFloat x) path ↔ x.isFinite = false ∧ path = [] := by
  cases x with
  | nan s f => exact nullAt_null.trans (and_iff_right rfl).symm
  | infinity s => exact nullAt_null.trans (and_iff_right rfl).symm
  | finite s m =>
    refine iff_of_false ?_ fun h => Bool.noConfusion h.1
    rintro ⟨⟩

@[simp]
theorem nullAt_ofFields_nil : ¬ NullAt (ofFields []) path := by
  intro h
  cases h with
  | member hmem _ => exact absurd hmem List.not_mem_nil

/-- The nulls of an object are those of its members. -/
@[simp]
theorem nullAt_ofFields_cons {name : String} {j : Json} {fields : List (String × Json)} :
    NullAt (ofFields ((name, j) :: fields)) path ↔
      (∃ rest, NullAt j rest ∧ path = .field name :: rest) ∨ NullAt (ofFields fields) path := by
  constructor
  · intro h
    rw [ofFields, List.map_cons] at h
    cases h with
    | member hmem inside =>
      rcases List.mem_cons.mp hmem with heq | hmem
      · obtain ⟨rfl, rfl⟩ := Prod.mk.inj heq
        exact Or.inl ⟨_, inside, rfl⟩
      · exact Or.inr (.member hmem inside)
  · rintro (⟨rest, inside, rfl⟩ | h)
    · exact .member (List.mem_cons_self ..) inside
    · rw [ofFields] at h
      cases h with
      | member hmem inside => exact .member (List.mem_cons_of_mem _ hmem) inside

/-- The nulls of an array in a member are those of its elements. -/
@[simp]
theorem nullAt_field_array {α : Type} {xs : List α} {f : α → Json} {name : String} :
    (∃ rest, NullAt (array (xs.map f)) rest ∧ path = .field name :: rest) ↔
      ∃ i x, xs[i]? = some x ∧
        ∃ rest, NullAt (f x) rest ∧ path = .field name :: .element i :: rest := by
  constructor
  · rintro ⟨_, h, rfl⟩
    cases h with
    | element position inside =>
      rw [List.getElem?_map] at position
      obtain ⟨x, hx, rfl⟩ := Option.map_eq_some_iff.mp position
      exact ⟨_, x, hx, _, inside, rfl⟩
  · rintro ⟨i, x, hx, rest, inside, rfl⟩
    refine ⟨_, .element ?_ inside, rfl⟩
    rw [List.getElem?_map, hx]
    rfl

end LatencyLog.Json
