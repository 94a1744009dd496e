import Mathlib.Data.List.Forall2
import ActiveRow.Proofs.Json.Formed

/-!
# Documents up to the order of members

Two documents are rearranged when they differ at most in the order in which their objects, at any
depth, list their members. Items of arrays keep their places.

* `sortFields_perm`: sorting members that repeat no name loses none and adds none.
* `rearranged_sorted`: so a well-formed document and its sorted form are rearranged.
-/

namespace ActiveRow.Json

open List (Forall₂)

/-- Two members of one name whose documents are related. -/
inductive Member (R : Json → Json → Prop) : String × Json → String × Json → Prop
  | mk (name : String) {a b : Json} (h : R a b) : Member R (name, a) (name, b)

/-- **Documents that differ in the order of members** at most, at every depth. -/
inductive Rearranged : Json → Json → Prop
  | refl (j : Json) : Rearranged j j
  | array {a b : List Json} (items : Forall₂ Rearranged a b) : Rearranged (array a) (array b)
  | object {l l' m : List (String × Json)} (members : Forall₂ (Member Rearranged) l l')
      (order : l'.Perm m) : Rearranged (object l) (object m)

/-! ### Sorting loses no member -/

theorem addField_perm {key : String} (value : Json) {l : List (String × Json)}
    (h : key ∉ Pairs.keys l) : (addField key value l).Perm ((key, value) :: l) := by
  induction l with
  | nil => exact .refl _
  | cons e l ih =>
    obtain ⟨k, v⟩ := e
    simp only [Pairs.keys_cons, List.mem_cons, not_or] at h
    rw [addField, if_neg h.1]
    split
    · exact .refl _
    · exact ((ih h.2).cons (k, v)).trans (.swap (key, value) (k, v) l)

theorem sortFields_perm {l : List (String × Json)} (h : (Pairs.keys l).Nodup) :
    (sortFields l).Perm l := by
  induction l with
  | nil => exact .refl _
  | cons e l ih =>
    obtain ⟨k, v⟩ := e
    rw [Pairs.keys_cons, List.nodup_cons] at h
    have hk : k ∉ Pairs.keys (sortFields l) := by
      rw [keys_sortFields]
      exact h.1
    exact (addField_perm v hk).trans ((ih h.2).cons (k, v))

theorem keys_sortedFields (l : List (String × Json)) :
    Pairs.keys (sortedFields l) = Pairs.keys l := by
  induction l with
  | nil => rfl
  | cons e l ih => rw [sortedFields, Pairs.keys_cons, ih, Pairs.keys_cons]

theorem sortedItems_eq_map (js : List Json) : sortedItems js = js.map sorted := by
  induction js with
  | nil => rfl
  | cons j js ih => rw [sortedItems, ih, List.map_cons]

mutual

/-- **Sorting only rearranges.** -/
theorem rearranged_sorted : ∀ j : Json, j.WellFormed → j.Rearranged j.sorted
  | .null, _ => .refl _
  | .bool _, _ => .refl _
  | .integer _, _ => .refl _
  | .float _, _ => .refl _
  | .string _, _ => .refl _
  | .array items, h => .array (rearranged_sortedItems items h)
  | .object fields, h => by
    have hkeys : (Pairs.keys (sortedFields fields)).Nodup := by
      rw [keys_sortedFields]
      exact h.1
    exact .object (rearranged_sortedFields fields h.2) (sortFields_perm hkeys).symm

theorem rearranged_sortedItems : ∀ js : List Json, ItemsFormed js →
    Forall₂ Rearranged js (sortedItems js)
  | [], _ => .nil
  | j :: js, h => .cons (rearranged_sorted j h.1) (rearranged_sortedItems js h.2)

theorem rearranged_sortedFields : ∀ l : List (String × Json), FieldsFormed l →
    Forall₂ (Member Rearranged) l (sortedFields l)
  | [], _ => .nil
  | (k, j) :: l, h => .cons (.mk k (rearranged_sorted j h.1)) (rearranged_sortedFields l h.2)

end

end ActiveRow.Json
