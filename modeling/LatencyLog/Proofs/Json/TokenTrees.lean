import LatencyLog.Json.Reader

/-!
# Trees from their tokens

The tokens of a value lead a reader over the value as a whole: from where a value is expected to where it
has just ended, whatever is open around it (`run_tokens`). That is the induction hypothesis which an
element of an array and the value of a member need, and at the outside it says that a tree is read from its
tokens (`ofTokens?_tokens`).

In front of a first element the reader could be led elsewhere, as a closing bracket may come there as well.
But no value begins with one (`exists_tokens_eq_cons`).
-/

namespace LatencyLog.Json

/-- What holds of a value if it holds of all that it is made of, holds of every value. -/
@[elab_as_elim]
theorem induction {motive : Json → Prop} (null : motive null) (bool : ∀ b, motive (bool b))
    (number : ∀ literal, motive (number literal)) (string : ∀ source, motive (string source))
    (array : ∀ elements, (∀ j ∈ elements, motive j) → motive (array elements))
    (object : ∀ members, (∀ m ∈ members, motive m.2) → motive (object members)) (j : Json) :
    motive j :=
  match j with
  | .null => null
  | .bool b => bool b
  | .number literal => number literal
  | .string source => string source
  | .array elements => array elements fun j _ => induction null bool number string array object j
  | .object members => object members fun m _ => induction null bool number string array object m.2
termination_by sizeOf j
decreasing_by
  · have := List.sizeOf_lt_of_mem ‹_›
    simp only [Json.array.sizeOf_spec]
    omega
  · rename_i h
    obtain ⟨name, value⟩ := m
    have := List.sizeOf_lt_of_mem h
    simp only [Json.object.sizeOf_spec, Prod.mk.sizeOf_spec] at *
    omega

/-! ## Tokens -/

@[simp]
theorem tokens_null : null.tokens = [.null] := by rw [tokens]

@[simp]
theorem tokens_bool (b : Bool) : (bool b).tokens = [.bool b] := by rw [tokens]

@[simp]
theorem tokens_number (literal : List Char) : (number literal).tokens = [.number literal] := by
  rw [tokens]

@[simp]
theorem tokens_string (source : List Char) : (string source).tokens = [.string source] := by
  rw [tokens]

/-- The tokens of a member. -/
def memberTokens (m : List Char × Json) : List Token := .string m.1 :: .colon :: m.2.tokens

theorem tokens_array (elements : List Json) :
    (array elements).tokens =
      .leftBracket :: (List.intercalate [.comma] (elements.map tokens) ++ [.rightBracket]) := by
  rw [tokens]
  rfl

theorem tokens_object (members : List (List Char × Json)) :
    (object members).tokens =
      .leftBrace :: (List.intercalate [.comma] (members.map memberTokens) ++ [.rightBrace]) := by
  rw [tokens]
  rfl

theorem exists_tokens_eq_cons (j : Json) :
    ∃ t ts, j.tokens = t :: ts ∧ t ≠ .rightBracket := by
  cases j with
  | null => exact ⟨_, _, tokens_null, nofun⟩
  | bool b => exact ⟨_, _, tokens_bool b, nofun⟩
  | number literal => exact ⟨_, _, tokens_number literal, nofun⟩
  | string source => exact ⟨_, _, tokens_string source, nofun⟩
  | array elements => exact ⟨_, _, tokens_array elements, nofun⟩
  | object members => exact ⟨_, _, tokens_object members, nofun⟩

namespace Place

/-- The place behind some tokens. -/
def run (p : Place) (ts : List Token) : Option Place := ts.foldlM step p

@[simp]
theorem run_nil (p : Place) : p.run [] = some p := rfl

@[simp]
theorem run_cons (p : Place) (t : Token) (ts : List Token) :
    p.run (t :: ts) = (p.step t).bind fun q => q.run ts := rfl

theorem run_append (p : Place) (ts ts' : List Token) :
    p.run (ts ++ ts') = (p.run ts).bind fun q => q.run ts' := List.foldlM_append

/-- A reader goes over the value as over one step. -/
def Crosses (j : Json) : Prop :=
  ∀ frames, run ⟨frames, .value⟩ j.tokens = some ⟨frames, .after j⟩

/-! ## Sequences

Elements and members are read alike. The places differ, and are parameters here: where another item is
expected behind those before, where an item has just ended, and where the whole has. -/

theorem run_sequence {α : Type} (spell : α → List Token) (next : List α → Place)
    (behind : List α → α → Place) (closed : List α → Place) {closing : Token} {xs : List α}
    (hitem : ∀ before, ∀ x ∈ xs, (next before).run (spell x) = some (behind before x))
    (hcomma : ∀ before x, (behind before x).step .comma = some (next (x :: before)))
    (hclosing : ∀ before x, (behind before x).step closing = some (closed (x :: before).reverse))
    (before : List α) (x : α) (p : Place) (hp : p.run (spell x) = some (behind before x)) :
    p.run (List.intercalate [.comma] ((x :: xs).map spell) ++ [closing]) =
      some (closed (before.reverse ++ x :: xs)) := by
  induction xs generalizing before x p with
  | nil =>
    rw [List.map_singleton, List.intercalate_singleton, run_append, hp, Option.bind_some, run_cons,
      hclosing, List.reverse_cons]
    rfl
  | cons y xs ih =>
    have hy := hitem (x :: before) y (List.mem_cons_self ..)
    have hrest := ih (fun before z hz => hitem before z (List.mem_cons_of_mem _ hz)) (x :: before) y _ hy
    rw [List.map_cons, List.map_cons, List.intercalate_cons_cons, List.append_assoc, List.append_assoc,
      List.singleton_append, run_append, hp, Option.bind_some, run_cons, hcomma, Option.bind_some,
      ← List.map_cons, hrest, List.reverse_cons, List.append_assoc]
    rfl

theorem step_element {frames : List Frame} {t : Token} (ht : t ≠ .rightBracket) :
    step ⟨.array [] :: frames, .element⟩ t = step ⟨.array [] :: frames, .value⟩ t := by
  cases t <;> first | rfl | exact absurd rfl ht

/-- A first element is read like the others. -/
theorem run_element (frames : List Frame) {j : Json} (hj : Crosses j) :
    run ⟨.array [] :: frames, .element⟩ j.tokens = some ⟨.array [] :: frames, .after j⟩ := by
  obtain ⟨t, ts, h, ht⟩ := exists_tokens_eq_cons j
  rw [← hj, h, run_cons, run_cons, step_element ht]

theorem crosses_array {elements : List Json} (h : ∀ j ∈ elements, Crosses j) :
    Crosses (array elements) := by
  intro frames
  rw [tokens_array]
  show run ⟨.array [] :: frames, .element⟩ _ = _
  cases elements with
  | nil => rfl
  | cons j elements =>
    obtain ⟨hj, h⟩ := List.forall_mem_cons.mp h
    exact run_sequence tokens (fun before => ⟨.array before :: frames, .value⟩)
      (fun before i => ⟨.array before :: frames, .after i⟩) (fun js => ⟨frames, .after (array js)⟩)
      (fun before i hi => h i hi (.array before :: frames)) (fun _ _ => rfl) (fun _ _ => rfl)
      [] j _ (run_element frames hj)

theorem crosses_object {members : List (List Char × Json)} (h : ∀ m ∈ members, Crosses m.2) :
    Crosses (object members) := by
  intro frames
  rw [tokens_object]
  show run ⟨.object [] :: frames, .firstKey⟩ _ = _
  cases members with
  | nil => rfl
  | cons m members =>
    obtain ⟨hm, h⟩ := List.forall_mem_cons.mp h
    exact run_sequence memberTokens (fun before => ⟨.object before :: frames, .key⟩)
      (fun before n => ⟨.member before n.1 :: frames, .after n.2⟩)
      (fun ms => ⟨frames, .after (object ms)⟩)
      (fun before n hn => h n hn (.member before n.1 :: frames)) (fun _ _ => rfl) (fun _ _ => rfl)
      [] m _ (hm (.member [] m.1 :: frames))

/-- **The tokens of a value lead over it.** -/
theorem run_tokens (j : Json) : Crosses j := by
  induction j using Json.induction with
  | null => intro frames; rw [tokens_null]; rfl
  | bool b => intro frames; rw [tokens_bool]; rfl
  | number literal => intro frames; rw [tokens_number]; rfl
  | string source => intro frames; rw [tokens_string]; rfl
  | array elements ih => exact crosses_array ih
  | object members ih => exact crosses_object ih

end Place

/-- **A tree is read from its tokens.** -/
theorem ofTokens?_tokens (j : Json) : ofTokens? j.tokens = some j := by
  have h : j.tokens.foldlM Place.step Place.start = some ⟨[], .after j⟩ := Place.run_tokens j []
  rw [ofTokens?, h]
  rfl

end LatencyLog.Json
