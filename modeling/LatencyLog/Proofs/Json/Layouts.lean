import LatencyLog.Json.Printer
import LatencyLog.Proofs.Json.Escaping
import LatencyLog.Proofs.Json.FiniteNumbers
import LatencyLog.Proofs.Json.TokenTrees
import Mathlib.Data.List.Chain

/-!
# Texts of a tree

A text lays out a list of tokens if it is their texts with white space between (`Laid`). How much white
space there is decides nothing but looks, with one exception: where there is none, a number could run on
into what follows. In the tokens of a tree it does not, because behind a number stands a comma, a closing
bracket or nothing (`separated_tokens`). So any text that lays out the tokens of a tree is read as that tree
(`read?_of_laid`), and of the two printers it only has to be said that both lay out.
-/

namespace LatencyLog.Json

namespace Token

/-- The token is a bracket, a comma or a colon. -/
def isPunctuation : Token → Bool
  | leftBracket | rightBracket | leftBrace | rightBrace | comma | colon => true
  | _ => false

/-- No number runs into the token behind it. -/
def Separated (t u : Token) : Prop := ∀ literal, t = number literal → u.isPunctuation = true

/-- A number is a numeral, and a string the source of a text. -/
def WellSpelled : Token → Prop
  | number literal => ∃ n : Numeral, n.text = literal
  | string source => ∃ cs, escape cs = source
  | _ => True

/-- The tokens with white space in front of each. -/
inductive Laid : List Token → List Char → Prop where
  | nil : Laid [] []
  | cons {space cs : List Char} {t : Token} {ts : List Token}
    (gap : ∀ c ∈ space, isSpace c = true) (rest : Laid ts cs) :
    Laid (t :: ts) (space ++ (t.text ++ cs))

/-! ## One token -/

theorem isSpace_iff {c : Char} : isSpace c = true ↔ c = ' ' ∨ c = '\n' ∨ c = '\r' ∨ c = '\t' := by
  simp [isSpace, or_assoc]

theorem next?_of_number {c : Char} {cs : List Char} (hc : c.isDigit = true ∨ c = '-') :
    next? (c :: cs) = (number? (c :: cs)).map fun (literal, rest) => (number literal, rest) := by
  unfold next?
  split
  case h_11 => rfl
  all_goals
    rename_i heq
    cases heq
    rcases hc with hc | hc <;> cases hc

theorem exists_text_numeral (n : Numeral) :
    ∃ c cs, n.text = c :: cs ∧ (c.isDigit = true ∨ c = '-') := by
  obtain ⟨d, ds, h, hd⟩ := n.whole_eq_cons
  rw [Numeral.text, Numeral.body, h]
  cases n.negative with
  | true => exact ⟨_, _, rfl, .inr rfl⟩
  | false => exact ⟨_, _, rfl, .inl hd⟩

theorem next?_text_append {t : Token} (ht : t.WellSpelled) {rest : List Char}
    (hrest : ∀ literal, t = number literal → EndsNumber rest) :
    next? (t.text ++ rest) = some (t, rest) := by
  cases t with
  | bool b => cases b <;> rfl
  | number literal =>
    obtain ⟨n, rfl⟩ := ht
    obtain ⟨c, cs, h, hc⟩ := exists_text_numeral n
    have hnumber := n.number?_text_append (hrest _ rfl)
    rw [h] at hnumber
    rw [text, h, List.cons_append, next?_of_number hc, ← List.cons_append, hnumber]
    rfl
  | string source =>
    obtain ⟨cs, rfl⟩ := ht
    have hstring := stringRest?_escape cs rest
    rw [text, List.append_assoc, List.cons_append]
    show (stringRest? (escape cs ++ '"' :: rest)).map _ = _
    rw [hstring]
    rfl
  | _ => rfl

theorem exists_text_eq_cons {t : Token} (ht : t.WellSpelled) :
    ∃ c cs, t.text = c :: cs ∧ isSpace c = false := by
  cases t with
  | bool b => cases b <;> exact ⟨_, _, rfl, rfl⟩
  | number literal =>
    obtain ⟨n, rfl⟩ := ht
    obtain ⟨c, cs, h, hc⟩ := exists_text_numeral n
    refine ⟨c, cs, h, Bool.eq_false_iff.mpr fun hspace => ?_⟩
    rcases isSpace_iff.mp hspace with rfl | rfl | rfl | rfl <;> rcases hc with hc | hc <;> cases hc
  | _ => exact ⟨_, _, rfl, rfl⟩

/-! ## All tokens -/

theorem lex?_space_append {space : List Char} (h : ∀ c ∈ space, isSpace c = true) (cs : List Char) :
    lex? (space ++ cs) = lex? cs := by
  induction space with
  | nil => rfl
  | cons c space ih =>
    obtain ⟨hc, h⟩ := List.forall_mem_cons.mp h
    rw [List.cons_append, lex?, if_pos hc, ih h]

theorem lex?_of_next {c : Char} {cs rest : List Char} {t : Token} (hc : isSpace c = false)
    (h : next? (c :: cs) = some (t, rest)) : lex? (c :: cs) = (lex? rest).map (t :: ·) := by
  rw [lex?, if_neg (by rw [hc]; decide)]
  split
  · rename_i heq
    cases h.symm.trans heq
    rfl
  · rename_i heq
    cases h.symm.trans heq

theorem stops_space_append {space cs : List Char} (hspace : ∀ c ∈ space, isSpace c = true)
    (hcs : EndsNumber cs) : EndsNumber (space ++ cs) := by
  cases space with
  | nil => exact hcs
  | cons c space =>
    rw [EndsNumber, List.cons_append, Text.stops_cons]
    rcases isSpace_iff.mp (hspace c (List.mem_cons_self ..)) with rfl | rfl | rfl | rfl <;> rfl

/-- What is laid out does not go on with a number if its first token does not. -/
theorem Laid.endsNumber {ts : List Token} {cs : List Char} (h : Laid ts cs)
    (hts : ∀ t ∈ ts.head?, t.isPunctuation = true) : EndsNumber cs := by
  cases h with
  | nil => exact Text.stops_nil
  | @cons space cs t ts gap rest =>
    have ht := hts t rfl
    refine stops_space_append gap ?_
    cases t <;> first | exact Text.stops_cons.mpr rfl | cases ht

/-- **A text that lays out tokens is read as these tokens.** -/
theorem lex?_of_laid {ts : List Token} {cs : List Char} (h : Laid ts cs)
    (hspelled : ∀ t ∈ ts, t.WellSpelled) (hseparated : ts.IsChain Separated) :
    lex? cs = some ts := by
  induction h with
  | nil => rw [lex?]
  | @cons space cs t ts gap rest ih =>
    obtain ⟨ht, hspelled⟩ := List.forall_mem_cons.mp hspelled
    obtain ⟨hhead, hseparated⟩ := List.isChain_cons.mp hseparated
    have hends : ∀ literal, t = number literal → EndsNumber cs :=
      fun literal h => rest.endsNumber fun u hu => hhead u hu literal h
    have hnext := next?_text_append ht hends
    obtain ⟨c, text, htext, hc⟩ := exists_text_eq_cons ht
    rw [htext, List.cons_append] at hnext
    rw [lex?_space_append gap, htext, List.cons_append, lex?_of_next hc hnext,
      ih hspelled hseparated, Option.map_some]

end Token

open Token

/-! ## Tokens of a tree -/

theorem separated_append_cons {ts us : List Token} {t : Token} (ht : t.isPunctuation = true)
    (hts : ts.IsChain Separated) (hus : us.IsChain Separated) : (ts ++ t :: us).IsChain Separated := by
  have hfront : ∀ u, Separated t u := by
    rintro u literal rfl
    cases ht
  refine hts.append (List.isChain_cons.mpr ⟨fun u _ => hfront u, hus⟩) ?_
  rintro s _ _ ⟨rfl⟩ _ _
  exact ht

theorem separated_intercalate {tss : List (List Token)} (h : ∀ ts ∈ tss, ts.IsChain Separated) :
    (List.intercalate [comma] tss).IsChain Separated := by
  induction tss with
  | nil => exact .nil
  | cons ts tss ih =>
    obtain ⟨hts, h⟩ := List.forall_mem_cons.mp h
    cases tss with
    | nil => rwa [List.intercalate_singleton]
    | cons us tss =>
      rw [List.intercalate_cons_cons, List.append_assoc]
      exact separated_append_cons rfl hts (ih h)

theorem separated_bracketed {opening closing : Token} (hopening : opening.isPunctuation = true)
    (hclosing : closing.isPunctuation = true) {tss : List (List Token)}
    (h : ∀ ts ∈ tss, ts.IsChain Separated) :
    (opening :: (List.intercalate [comma] tss ++ [closing])).IsChain Separated := by
  rw [← List.nil_append (_ :: _)]
  refine separated_append_cons hopening .nil ?_
  exact separated_append_cons hclosing (separated_intercalate h) .nil

/-- **Behind a number stands punctuation.** -/
theorem separated_tokens (j : Json) : j.tokens.IsChain Separated := by
  induction j using Json.induction with
  | null => rw [tokens_null]; exact .singleton _
  | bool b => rw [tokens_bool]; exact .singleton _
  | number literal => rw [tokens_number]; exact .singleton _
  | string source => rw [tokens_string]; exact .singleton _
  | array elements ih =>
    rw [tokens_array]
    exact separated_bracketed rfl rfl (List.forall_mem_map.mpr ih)
  | object members ih =>
    rw [tokens_object]
    refine separated_bracketed rfl rfl (List.forall_mem_map.mpr fun m hm => ?_)
    have hkey : [Token.string m.1].IsChain Separated := .singleton _
    exact separated_append_cons rfl hkey (ih m hm)

/-! ## Spelling -/

/-- Every number of a tree is a numeral, and every string the source of a text. -/
def WellSpelled (j : Json) : Prop := ∀ t ∈ j.tokens, t.WellSpelled

theorem wellSpelled_leaf {j : Json} {t : Token} (hj : j.tokens = [t]) (ht : t.WellSpelled) :
    j.WellSpelled := by
  intro u hu
  rw [hj, List.mem_singleton] at hu
  rw [hu]
  exact ht

@[simp]
theorem wellSpelled_null : null.WellSpelled := wellSpelled_leaf tokens_null trivial

@[simp]
theorem wellSpelled_string (cs : List Char) : (string (escape cs)).WellSpelled :=
  wellSpelled_leaf (tokens_string _) ⟨cs, rfl⟩

@[simp]
theorem wellSpelled_ofText (s : String) : (ofText s).WellSpelled := wellSpelled_string _

@[simp]
theorem wellSpelled_ofNat (n : Nat) : (ofNat n).WellSpelled :=
  wellSpelled_leaf (tokens_number _) ⟨_, Numeral.text_ofNat n⟩

@[simp]
theorem wellSpelled_ofFloat (x : Binary64) : (ofFloat x).WellSpelled := by
  cases x with
  | finite s m =>
    obtain ⟨n, htext, _⟩ := Numeral.exists_numeral_writeFinite s m
    exact wellSpelled_leaf (tokens_number _) ⟨n, htext⟩
  | _ => exact wellSpelled_null

theorem wellSpelled_intercalate {tss : List (List Token)} (h : ∀ ts ∈ tss, ∀ t ∈ ts, t.WellSpelled) :
    ∀ t ∈ List.intercalate [comma] tss, t.WellSpelled := by
  induction tss with
  | nil =>
    intro t ht
    cases ht
  | cons ts tss ih =>
    obtain ⟨hts, h⟩ := List.forall_mem_cons.mp h
    cases tss with
    | nil => rwa [List.intercalate_singleton]
    | cons us tss =>
      rw [List.intercalate_cons_cons, List.append_assoc]
      refine List.forall_mem_append.mpr ⟨hts, ?_⟩
      exact List.forall_mem_cons.mpr ⟨trivial, ih h⟩

theorem wellSpelled_bracketed {opening closing : Token} (hopening : opening.WellSpelled)
    (hclosing : closing.WellSpelled) {tss : List (List Token)}
    (h : ∀ ts ∈ tss, ∀ t ∈ ts, t.WellSpelled) :
    ∀ t ∈ opening :: (List.intercalate [comma] tss ++ [closing]), t.WellSpelled := by
  refine List.forall_mem_cons.mpr ⟨hopening, ?_⟩
  exact List.forall_mem_append.mpr
    ⟨wellSpelled_intercalate h, List.forall_mem_singleton.mpr hclosing⟩

theorem wellSpelled_array {elements : List Json} (h : ∀ j ∈ elements, j.WellSpelled) :
    (array elements).WellSpelled := by
  rw [WellSpelled, tokens_array]
  exact wellSpelled_bracketed (show leftBracket.WellSpelled from trivial)
    (show rightBracket.WellSpelled from trivial) (List.forall_mem_map.mpr h)

theorem wellSpelled_object {members : List (List Char × Json)}
    (hkeys : ∀ m ∈ members, ∃ cs, escape cs = m.1) (h : ∀ m ∈ members, m.2.WellSpelled) :
    (object members).WellSpelled := by
  rw [WellSpelled, tokens_object]
  refine wellSpelled_bracketed (show leftBrace.WellSpelled from trivial)
    (show rightBrace.WellSpelled from trivial) (List.forall_mem_map.mpr fun m hm => ?_)
  exact List.forall_mem_cons.mpr ⟨hkeys m hm, List.forall_mem_cons.mpr ⟨trivial, h m hm⟩⟩

theorem wellSpelled_ofFields {fields : List (String × Json)} (h : ∀ f ∈ fields, f.2.WellSpelled) :
    (ofFields fields).WellSpelled :=
  wellSpelled_object (List.forall_mem_map.mpr fun f _ => ⟨f.1.toList, rfl⟩)
    (List.forall_mem_map.mpr h)

/-! ## Whole texts -/

/-- **Any text that lays out the tokens of a tree is read as the tree.** -/
theorem read?_of_laid {j : Json} (hj : j.WellSpelled) {cs : List Char} (h : Laid j.tokens cs) :
    read? cs = some j := by
  rw [read?, lex?_of_laid h hj (separated_tokens j)]
  exact ofTokens?_tokens j

theorem laid_flatMap_text (ts : List Token) : Laid ts (ts.flatMap Token.text) := by
  induction ts with
  | nil => exact .nil
  | cons t ts ih =>
    show Laid (t :: ts) ([] ++ (t.text ++ ts.flatMap Token.text))
    exact .cons (fun c hc => absurd hc List.not_mem_nil) ih

theorem read?_compact {j : Json} (hj : j.WellSpelled) : read? j.compact = some j :=
  read?_of_laid hj (laid_flatMap_text _)

/-! ## Pretty texts -/

theorem isSpace_gap {depth : Nat} {t u : Token} : ∀ c ∈ gap depth t u, isSpace c = true := by
  have hline : ∀ depth, ∀ c ∈ newLine depth, isSpace c = true := by
    intro depth c hc
    rcases List.mem_cons.mp hc with rfl | hc
    · rfl
    · rw [List.eq_of_mem_replicate hc]
      rfl
  unfold gap
  intro c hc
  split at hc
  · split at hc
    · cases hc
    · exact hline _ c hc
  · split at hc
    · exact hline _ c hc
    · split at hc
      · exact hline _ c hc
      · split at hc
        · rw [List.mem_singleton.mp hc]
          rfl
        · cases hc

/-- What a draft adds to its text for further tokens, laid out. -/
theorem exists_laid_foldl_add (ts : List Token) (draft : Draft) :
    ∃ cs, Laid ts cs ∧ (ts.foldl Draft.add draft).text = draft.text ++ cs := by
  induction ts generalizing draft with
  | nil => exact ⟨[], .nil, (List.append_nil _).symm⟩
  | cons t ts ih =>
    obtain ⟨cs, hlaid, htext⟩ := ih (draft.add t)
    rw [List.foldl_cons, htext]
    cases h : draft.last with
    | none =>
      refine ⟨[] ++ (t.text ++ cs), .cons (fun _ h => by cases h) hlaid, ?_⟩
      simp [Draft.text, Draft.add, h]
    | some u =>
      refine ⟨u.gap draft.depth t ++ (t.text ++ cs), .cons isSpace_gap hlaid, ?_⟩
      simp [Draft.text, Draft.add, h]

theorem read?_pretty {j : Json} (hj : j.WellSpelled) : read? j.pretty = some j := by
  obtain ⟨cs, hlaid, htext⟩ := exists_laid_foldl_add j.tokens Draft.empty
  rw [pretty, htext]
  exact read?_of_laid hj hlaid

end LatencyLog.Json
