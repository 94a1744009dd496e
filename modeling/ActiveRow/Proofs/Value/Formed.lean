import ActiveRow.Model
import ActiveRow.Proofs.Json.Formed
import ActiveRow.Proofs.Value.Same

/-!
# Casts and well-formed values

The value of a well-formed document is well formed, so casts keep values well-formed.

* `wellFormed_ofJson`, `wellFormed_apply`, `wellFormed_castValue`.
-/

namespace ActiveRow

/-! ### Values of documents -/

namespace Value

theorem keys_ofJsonFields (l : List (String × Json)) :
    Pairs.keys (ofJsonFields l) = Pairs.keys l := by
  induction l with
  | nil => rfl
  | cons e l ih => rw [ofJsonFields, Pairs.keys_cons, ih]; rfl

mutual

theorem wellFormed_ofJson : ∀ j : Json, j.WellFormed → (ofJson j).WellFormed
  | .null, _ | .bool _, _ | .float _, _ | .string _, _ => trivial
  | .integer n, _ => by
    rw [ofJson, ofInteger]
    split <;> trivial
  | .array items, h => itemsFormed_ofJsonItems items h
  | .object fields, h =>
    ⟨(keys_ofJsonFields fields).symm ▸ h.1, fieldsFormed_ofJsonFields fields h.2⟩

theorem itemsFormed_ofJsonItems : ∀ js : List Json, Json.ItemsFormed js →
    ItemsFormed (ofJsonItems js)
  | [], _ => trivial
  | j :: js, h => ⟨wellFormed_ofJson j h.1, itemsFormed_ofJsonItems js h.2⟩

theorem fieldsFormed_ofJsonFields : ∀ l : List (String × Json), Json.FieldsFormed l →
    FieldsFormed (ofJsonFields l)
  | [], _ => trivial
  | (_, j) :: l, h => ⟨wellFormed_ofJson j h.1, fieldsFormed_ofJsonFields l h.2⟩

end

end Value

/-! ### Casts -/

namespace Cast

variable {v : Value}

theorem wellFormed_toInteger (h : v.WellFormed) : (toInteger v).WellFormed := by
  cases v with
  | float x => rw [toInteger]; split <;> exact True.intro
  | text s =>
    rw [toInteger]
    split
    · exact True.intro
    · split <;> exact True.intro
  | array items => exact h
  | object fields => exact h
  | _ => exact True.intro

theorem wellFormed_toFloat (h : v.WellFormed) : (toFloat v).WellFormed := by
  unfold toFloat
  split
  · exact True.intro
  · exact h

theorem wellFormed_toBoolean (h : v.WellFormed) : (toBoolean v).WellFormed := by
  cases v with
  | text s =>
    rw [toBoolean]
    cases wordOf? s <;> exact True.intro
  | array items => exact h
  | object fields => exact h
  | _ => exact True.intro

theorem wellFormed_toText : (toText v).WellFormed := by
  cases v <;> exact True.intro

theorem wellFormed_toDocument (h : v.WellFormed) : (toDocument v).WellFormed := by
  cases v with
  | text s =>
    rw [toDocument]
    cases hj : Json.ofText? s with
    | some j => exact Value.wellFormed_ofJson j (Json.wellFormed_ofText hj)
    | none => exact True.intro
  | array items => exact h
  | object fields => exact h
  | _ => exact True.intro

theorem wellFormed_toDatetime (h : v.WellFormed) : (toDatetime v).WellFormed := by
  cases v with
  | int n => rw [toDatetime]; cases Timestamp.ofUnix? n.toInt 0 <;> exact True.intro
  | text s => rw [toDatetime]; cases Timestamp.ofText? s <;> exact True.intro
  | array items => exact h
  | object fields => exact h
  | _ => exact True.intro

/-- **Casts keep values well-formed.** -/
theorem wellFormed_apply (c : Cast) (h : v.WellFormed) : (c.apply v).WellFormed := by
  unfold apply
  by_cases hn : v.isNull
  · rw [if_pos hn]
    exact h
  · rw [if_neg hn]
    cases c with
    | integer => exact wellFormed_toInteger h
    | float => exact wellFormed_toFloat h
    | boolean => exact wellFormed_toBoolean h
    | string => exact wellFormed_toText
    | json => exact wellFormed_toDocument h
    | datetime => exact wellFormed_toDatetime h

end Cast

theorem Model.wellFormed_castValue (m : Model) (key : String) {v : Value} (h : v.WellFormed) :
    (m.castValue key v).WellFormed := by
  unfold castValue
  split
  · exact Cast.wellFormed_apply _ h
  · exact h

end ActiveRow
