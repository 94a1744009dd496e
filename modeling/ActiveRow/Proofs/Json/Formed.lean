import Mathlib.Data.String.Basic
import ActiveRow.Json.Reading

/-!
# Well-formed documents

A document is well formed when no object in it repeats a name. Every document that is read from a
text is: the members of an object are sorted by name, and of several of one name one is kept.

* `ascending_sortFields`: sorted members have ascending names.
* `OfDigits.gives_number`: a number that is read is made of digits that fit 64 bits.
* `Inherited.of_text`: what documents inherit from their parts is so for what is read, by induction
  on the fuel of the three readers that call each other.
* `wellFormed_ofText`: so what is read is well formed.
-/

namespace ActiveRow

namespace Json

mutual

/-- No object in the document repeats a name. -/
def WellFormed : Json → Prop
  | array items => ItemsFormed items
  | object fields => (Pairs.keys fields).Nodup ∧ FieldsFormed fields
  | _ => True

def ItemsFormed : List Json → Prop
  | [] => True
  | j :: rest => j.WellFormed ∧ ItemsFormed rest

def FieldsFormed : List (String × Json) → Prop
  | [] => True
  | (_, j) :: rest => j.WellFormed ∧ FieldsFormed rest

end

theorem itemsFormed_iff (js : List Json) : ItemsFormed js ↔ ∀ j ∈ js, j.WellFormed := by
  induction js with
  | nil => simp [ItemsFormed]
  | cons j js ih => simp [ItemsFormed, ih]

theorem fieldsFormed_iff (l : List (String × Json)) :
    FieldsFormed l ↔ ∀ e ∈ l, e.2.WellFormed := by
  induction l with
  | nil => simp [FieldsFormed]
  | cons e l ih => simp [FieldsFormed, ih]

/-! ### Sorted members -/

theorem ascending_addField (key : String) (value : Json) {l : List (String × Json)}
    (h : (Pairs.keys l).Pairwise (· < ·)) :
    (Pairs.keys (addField key value l)).Pairwise (· < ·) := by
  induction l with
  | nil => simp [addField]
  | cons e l ih =>
    obtain ⟨k, v⟩ := e
    rw [Pairs.keys_cons, List.pairwise_cons] at h
    unfold addField
    split
    · exact List.pairwise_cons.2 h
    · rename_i hne
      split
      · rename_i hlt
        refine List.pairwise_cons.2 ⟨fun k' hk' => ?_, List.pairwise_cons.2 h⟩
        rcases List.mem_cons.1 hk' with rfl | hk'
        · exact hlt
        · exact lt_trans hlt (h.1 k' hk')
      · rename_i hge
        refine List.pairwise_cons.2 ⟨fun k' hk' => ?_, ih h.2⟩
        rcases (mem_keys_addField key k' value l).1 hk' with rfl | hk'
        · exact lt_of_le_of_ne (not_lt.1 hge) (Ne.symm hne)
        · exact h.1 k' hk'

theorem ascending_sortFields (l : List (String × Json)) :
    (Pairs.keys (sortFields l)).Pairwise (· < ·) := by
  induction l with
  | nil => exact .nil
  | cons e l ih => exact ascending_addField e.1 e.2 ih

theorem mem_addField {key : String} {value : Json} {l : List (String × Json)} {e : String × Json}
    (h : e ∈ addField key value l) : e = (key, value) ∨ e ∈ l := by
  induction l with
  | nil => simpa [addField] using h
  | cons a l ih =>
    unfold addField at h
    split at h
    · exact .inr h
    · split at h
      · simpa using h
      · rcases List.mem_cons.1 h with rfl | h
        · exact .inr List.mem_cons_self
        · exact (ih h).imp_right (List.mem_cons_of_mem _)

theorem mem_sortFields {l : List (String × Json)} {e : String × Json} (h : e ∈ sortFields l) :
    e ∈ l := by
  induction l with
  | nil => cases h
  | cons a l ih =>
    rcases mem_addField h with rfl | h
    · exact List.mem_cons_self
    · exact List.mem_cons_of_mem _ (ih h)

theorem wellFormed_sortFields {l : List (String × Json)} (h : ∀ e ∈ l, e.2.WellFormed) :
    (object (sortFields l)).WellFormed :=
  ⟨(ascending_sortFields l).imp fun hlt => ne_of_lt hlt,
    (fieldsFormed_iff _).2 fun e he => h e (mem_sortFields he)⟩

/-! ### Reading -/

/-- Whatever a reader gives has a property. -/
def Gives (P : Json → Prop) (o : Option (Json × List Char)) : Prop :=
  ∀ j rest, o = some (j, rest) → P j

section

variable {P Q : Json → Prop}

theorem gives_none : Gives P none := fun _ _ h => nomatch h

theorem gives_some {j : Json} (h : P j) (rest : List Char) : Gives P (some (j, rest)) := by
  rintro j' rest' h'
  cases h'
  exact h

theorem gives_bind {α : Type} (o : Option α) {k : α → Option (Json × List Char)}
    (h : ∀ x, o = some x → Gives P (k x)) : Gives P (o.bind k) := by
  cases o with
  | none => exact gives_none
  | some x => exact h x rfl

theorem gives_map {α : Type} (o : Option α) {f : α → Json × List Char}
    (h : ∀ x, P (f x).1) : Gives P (o.map f) := by
  cases o with
  | none => exact gives_none
  | some x => exact gives_some (h x) _

theorem Gives.mono {o : Option (Json × List Char)} (h : Gives P o) (hPQ : ∀ j, P j → Q j) :
    Gives Q o := fun j rest hj => hPQ j (h j rest hj)

end

/-! ### Reading numbers -/

/-- The document is a number. -/
def IsNumber : Json → Prop
  | integer _ | float _ => True
  | _ => False

theorem IsNumber.wellFormed : ∀ j : Json, j.IsNumber → j.WellFormed
  | integer _, _ | float _, _ => trivial

theorem digit_le {c : Char} (h : Decimal.isDigit c = true) : c.toNat - 48 ≤ Word.maxCount := by
  simp only [Decimal.isDigit, Bool.and_eq_true, decide_eq_true_eq] at h
  unfold Word.maxCount
  omega

theorem gather_le {acc : Nat} (cs : List Char) (h : acc ≤ Word.maxCount) :
    (gather acc cs).1 ≤ Word.maxCount := by
  fun_induction gather acc cs with
  | case1 => exact h
  | case2 acc c rest hfits ih =>
    rw [Bool.and_eq_true, decide_eq_true_eq] at hfits
    exact ih hfits.2
  | case3 => exact h

/-- A property of the numbers that gathered digits stand for, scaled or as they are. -/
structure OfDigits (P : Json → Prop) : Prop where
  scaled {negative : Bool} {digits : Nat} {exponent : Int} {j : Json}
    (hd : digits ≤ Word.maxCount) (h : scaled negative digits exponent = some j) : P j
  zero (negative : Bool) : P (float (Double.ofMagnitude negative 0))
  whole (negative : Bool) {digits : Nat} (hd : digits ≤ Word.maxCount) : P (whole negative digits)

namespace OfDigits

variable {P : Json → Prop} (hP : OfDigits P) (negative : Bool) {digits : Nat}
  (hd : digits ≤ Word.maxCount) (exponent : Int) (cs : List Char)

include hP hd

theorem gives_exponentPart : Gives P (exponentPart negative digits exponent cs) := by
  have hscaled : ∀ e rest,
      Gives P ((Json.scaled negative digits e).bind fun j => some (j, rest)) :=
    fun e rest => gives_bind _ fun j hj => gives_some (hP.scaled hd hj) rest
  simp only [exponentPart, Option.bind_eq_bind, Option.pure_def]
  repeat' split
  all_goals first
    | exact hscaled _ _
    | exact gives_none
    | exact gives_some (hP.zero _) _

theorem gives_afterDigits : Gives P (afterDigits negative digits exponent cs) := by
  unfold afterDigits
  split
  · exact hP.gives_exponentPart _ hd _ _
  · exact hP.gives_exponentPart _ hd _ _
  · intro j rest h
    obtain ⟨j', hj, h⟩ := Option.map_eq_some_iff.1 h
    cases h
    exact hP.scaled hd hj

theorem gives_fractionPart : Gives P (fractionPart negative digits exponent cs) := by
  unfold fractionPart
  split
  · exact gives_none
  · exact hP.gives_afterDigits _ (gather_le cs hd) _ _

omit hd

/-- **The reader of numbers** gathers digits as long as they fit. -/
theorem gives_number : Gives P (number? cs) := by
  simp only [number?, Option.bind_eq_bind, Option.pure_def]
  split
  all_goals try split
  all_goals
    refine gives_bind _ fun e he => ?_
    have hd : e.1 ≤ Word.maxCount := by
      cases he <;> first
        | exact Nat.zero_le _
        | exact gather_le _ (digit_le ‹_›)
    split
    · exact hP.gives_fractionPart _ hd _ _
    · split
      · exact gives_some (hP.whole _ hd) _
      · exact hP.gives_afterDigits _ hd _ _

end OfDigits

theorem ofDigits_isNumber : OfDigits IsNumber where
  scaled _ h := by
    obtain ⟨x, -, rfl⟩ := Option.map_eq_some_iff.1 h
    trivial
  zero _ := trivial
  whole negative digits _ := by
    unfold Json.whole
    split
    · split <;> trivial
    · trivial

/-! ### Reading documents -/

/-- A property of the numbers that are read, that documents inherit from what they are made of. -/
structure Inherited (P : Json → Prop) : Prop where
  null : P null
  bool (b : Bool) : P (bool b)
  number (cs : List Char) : Gives P (number? cs)
  string (s : String) : P (string s)
  array (items : List Json) (h : ∀ j ∈ items, P j) : P (array items)
  object (fields : List (String × Json)) (h : ∀ e ∈ fields, P e.2) : P (object (sortFields fields))

namespace Inherited

variable {P : Json → Prop} (hP : Inherited P)

include hP

mutual

theorem gives_value : ∀ (fuel depth : Nat) (cs : List Char), Gives P (value? fuel depth cs)
  | 0, _, _ => gives_none
  | fuel + 1, depth, cs => by
    unfold value?
    split
    · exact gives_map _ fun _ => hP.null
    · exact gives_map _ fun _ => hP.bool true
    · exact gives_map _ fun _ => hP.bool false
    · exact gives_map _ fun _ => hP.string _
    · split
      · exact gives_none
      · exact gives_some (hP.array [] (by simp)) _
      · exact gives_items fuel _ [] _ (by simp)
    · split
      · exact gives_none
      · exact gives_some (hP.object [] (by simp)) _
      · exact gives_fields fuel _ [] _ (by simp)
    · exact hP.number _

theorem gives_items : ∀ (fuel depth : Nat) (acc : List Json) (cs : List Char),
    (∀ j ∈ acc, P j) → Gives P (items? fuel depth acc cs)
  | 0, _, _, _, _ => gives_none
  | fuel + 1, depth, acc, cs, hacc => by
    unfold items?
    cases hv : value? fuel depth cs with
    | none => exact gives_none
    | some e =>
      have hj := gives_value fuel depth cs e.1 e.2 hv
      have hall : ∀ j ∈ e.1 :: acc, P j := List.forall_mem_cons.2 ⟨hj, hacc⟩
      dsimp only
      split
      · exact gives_items fuel depth _ _ hall
      · exact gives_some (hP.array _ fun j h => hall j (List.mem_reverse.1 h)) _
      · exact gives_none

theorem gives_fields : ∀ (fuel depth : Nat) (acc : List (String × Json)) (cs : List Char),
    (∀ e ∈ acc, P e.2) → Gives P (fields? fuel depth acc cs)
  | 0, _, _, _, _ => gives_none
  | fuel + 1, depth, acc, cs, hacc => by
    unfold fields?
    split
    · split
      · exact gives_none
      · split
        · split
          · exact gives_none
          · rename_i j rest hv
            have hj := gives_value fuel depth _ j rest hv
            have hall : ∀ key, ∀ e ∈ (key, j) :: acc, P e.2 := fun key e he =>
              (List.mem_cons.1 he).elim (fun h => h ▸ hj) (hacc e)
            split
            · exact gives_fields fuel depth _ _ (hall _)
            · exact gives_some (hP.object _ fun e he => hall _ e (List.mem_reverse.1 he)) _
            · exact gives_none
        · exact gives_none
    · exact gives_none

end

/-- **What is read from a text** has an inherited property. -/
theorem of_text {s : String} {j : Json} (h : ofText? s = some j) : P j := by
  unfold ofText? at h
  dsimp only at h
  split at h
  · rename_i j' rest hv
    split at h
    · cases h
      exact hP.gives_value _ _ _ j rest hv
    · cases h
  · cases h

end Inherited

theorem inherited_wellFormed : Inherited WellFormed where
  null := trivial
  bool _ := trivial
  number cs := (ofDigits_isNumber.gives_number cs).mono IsNumber.wellFormed
  string _ := trivial
  array _ h := (itemsFormed_iff _).2 h
  object _ h := wellFormed_sortFields h

theorem wellFormed_ofText {s : String} {j : Json} (h : ofText? s = some j) : j.WellFormed :=
  inherited_wellFormed.of_text h

end Json

end ActiveRow
