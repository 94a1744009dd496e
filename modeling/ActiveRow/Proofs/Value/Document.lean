import ActiveRow.Page
import ActiveRow.Proofs.Binary.Integer
import ActiveRow.Proofs.Json.Rearranged
import ActiveRow.Proofs.Value.Formed

/-!
# Values and their documents

A value is turned into a document in two ways, with sorted members and with members in their own
order, and a document is turned back into a value. What comes back equals the value when JSON has
values of every kind in it: identifiers and moments come back as texts, and floats that are not
finite as null.

* `same_ofJson_toJson_iff`: what comes back equals the value exactly then.
* `sorted_document`: the two documents differ by sorting, and by nothing else.
* `documents_agree`: so do the documents of collections and pages.
-/

namespace ActiveRow

namespace Value

/-! ### What JSON can hold -/

mutual

/-- Whether JSON has values of every kind in the value: no identifier, no moment and no float that
is not finite stands in it, at any depth. -/
def isNative : Value → Bool
  | uuid _ | timestamp _ => false
  | float x => x.isFinite
  | array items => itemsNative items
  | object fields => fieldsNative fields
  | null | bool _ | int _ | text _ => true

def itemsNative : List Value → Bool
  | [] => true
  | v :: rest => v.isNative && itemsNative rest

def fieldsNative : List (String × Value) → Bool
  | [] => true
  | (_, v) :: rest => v.isNative && fieldsNative rest

end

/-! ### Members of the documents -/

theorem toJsonFields_eq_map (l : List (String × Value)) :
    toJsonFields l = l.map fun e => (e.1, e.2.toJson) := by
  induction l with
  | nil => rfl
  | cons e l ih => rw [toJsonFields, ih, List.map_cons]

theorem ofJsonFields_eq_map (l : List (String × Json)) :
    ofJsonFields l = l.map fun e => (e.1, ofJson e.2) := by
  induction l with
  | nil => rfl
  | cons e l ih => rw [ofJsonFields, ih, List.map_cons]

theorem keys_toJsonFields (l : List (String × Value)) :
    Pairs.keys (toJsonFields l) = Pairs.keys l := by
  rw [toJsonFields_eq_map, Pairs.keys, List.map_map]
  rfl

/-- The members that come back are those that went in, in another order. -/
theorem ofJsonFields_sortFields_perm {l : List (String × Value)} (h : (Pairs.keys l).Nodup) :
    (ofJsonFields (Json.sortFields (toJsonFields l))).Perm
      (l.map fun e => (e.1, ofJson e.2.toJson)) := by
  have hkeys : (Pairs.keys (toJsonFields l)).Nodup := by rwa [keys_toJsonFields]
  have hp := (Json.sortFields_perm hkeys).map fun e => (e.1, ofJson e.2)
  rw [← ofJsonFields_eq_map, toJsonFields_eq_map, List.map_map] at hp
  rw [toJsonFields_eq_map]
  exact hp

/-! ### A value that comes back -/

mutual

/-- **What comes back.** A document gives its value back exactly when JSON can hold the value. -/
theorem same_ofJson_toJson_iff : ∀ v : Value, v.WellFormed →
    ((ofJson v.toJson).same v = true ↔ v.isNative = true)
  | null, _ => by simp [toJson, ofJson, same, isNative]
  | bool b, _ => by simp [toJson, ofJson, same, isNative]
  | int n, _ => by simp [toJson, ofJson, ofInteger, Word.signed?_toInt, same, isNative]
  | text s, _ => by simp [toJson, ofJson, same, isNative]
  | uuid u, _ => by simp [toJson, ofJson, same, isNative]
  | timestamp t, _ => by simp [toJson, ofJson, same, isNative]
  | float x, _ => by
    rw [toJson, isNative]
    cases hx : x.isFinite with
    | true =>
      have hself := (Double.sameNumber_self_iff x).2 (Double.isNaN_of_isFinite hx)
      simpa [ofJson, same] using hself
    | false => simp [ofJson, same]
  | array items, h => by
    rw [toJson, ofJson, same, isNative]
    exact sameItems_ofJson_iff items h
  | object fields, h => by
    obtain ⟨hkeys, hfields⟩ := h
    have hp := ofJsonFields_sortFields_perm hkeys
    have hlen : (ofJsonFields (Json.sortFields (toJsonFields fields))).length = fields.length := by
      rw [hp.length_eq, List.length_map]
    rw [toJson, ofJson, same, isNative, hlen, beq_self_eq_true, Bool.true_and, sameFields_iff,
      ← sameMembers_ofJson_iff fields hfields]
    constructor
    · intro h e he
      obtain ⟨v, hv, hs⟩ := h _ (hp.mem_iff.2 (List.mem_map_of_mem he))
      obtain rfl : e.2 = v := Option.some.inj ((Pairs.get?_of_mem hkeys he).symm.trans hv)
      exact hs
    · intro h e he
      obtain ⟨e, hmem, rfl⟩ := List.mem_map.1 (hp.mem_iff.1 he)
      exact ⟨e.2, Pairs.get?_of_mem hkeys hmem, h e hmem⟩

theorem sameItems_ofJson_iff : ∀ vs : List Value, ItemsFormed vs →
    (sameItems (ofJsonItems (toJsonItems vs)) vs = true ↔ itemsNative vs = true)
  | [], _ => by simp [toJsonItems, ofJsonItems, sameItems, itemsNative]
  | v :: vs, h => by
    rw [toJsonItems, ofJsonItems, sameItems, itemsNative, Bool.and_eq_true, Bool.and_eq_true,
      same_ofJson_toJson_iff v h.1, sameItems_ofJson_iff vs h.2]

theorem sameMembers_ofJson_iff : ∀ l : List (String × Value), FieldsFormed l →
    ((∀ e ∈ l, (ofJson e.2.toJson).same e.2 = true) ↔ fieldsNative l = true)
  | [], _ => by simp [fieldsNative]
  | (k, v) :: l, h => by
    rw [List.forall_mem_cons, fieldsNative, Bool.and_eq_true, same_ofJson_toJson_iff v h.1,
      sameMembers_ofJson_iff l h.2]

end

/-! ### The two documents -/

mutual

/-- **The two documents of a value** differ by sorting. -/
theorem sorted_document : ∀ v : Value, v.document.sorted = v.toJson
  | null => rfl
  | bool _ => rfl
  | int _ => rfl
  | text _ => rfl
  | uuid _ => rfl
  | timestamp _ => rfl
  | float x => by
    rw [document, toJson]
    split <;> rfl
  | array items => by
    rw [document, toJson, Json.sorted, sortedItems_documentItems items]
  | object fields => by
    rw [document, toJson, Json.sorted, sortedFields_documentFields fields]

theorem sortedItems_documentItems : ∀ vs : List Value,
    Json.sortedItems (documentItems vs) = toJsonItems vs
  | [] => rfl
  | v :: vs => by
    rw [documentItems, Json.sortedItems, toJsonItems, sorted_document v,
      sortedItems_documentItems vs]

theorem sortedFields_documentFields : ∀ l : List (String × Value),
    Json.sortedFields (documentFields l) = toJsonFields l
  | [] => rfl
  | (k, v) :: l => by
    rw [documentFields, Json.sortedFields, toJsonFields, sorted_document v,
      sortedFields_documentFields l]

end

theorem keys_documentFields (l : List (String × Value)) :
    Pairs.keys (documentFields l) = Pairs.keys l := by
  induction l with
  | nil => rfl
  | cons e l ih => rw [documentFields, Pairs.keys_cons, ih, Pairs.keys_cons]

mutual

theorem wellFormed_document : ∀ v : Value, v.WellFormed → v.document.WellFormed
  | null, _ => trivial
  | bool _, _ => trivial
  | int _, _ => trivial
  | text _, _ => trivial
  | uuid _, _ => trivial
  | timestamp _, _ => trivial
  | float x, _ => by
    rw [document]
    split <;> trivial
  | array items, h => itemsFormed_documentItems items h
  | object fields, h => by
    refine ⟨?_, fieldsFormed_documentFields fields h.2⟩
    rw [keys_documentFields]
    exact h.1

theorem itemsFormed_documentItems : ∀ vs : List Value, ItemsFormed vs →
    Json.ItemsFormed (documentItems vs)
  | [], _ => trivial
  | v :: vs, h => ⟨wellFormed_document v h.1, itemsFormed_documentItems vs h.2⟩

theorem fieldsFormed_documentFields : ∀ l : List (String × Value), FieldsFormed l →
    Json.FieldsFormed (documentFields l)
  | [], _ => trivial
  | (_, v) :: l, h => ⟨wellFormed_document v h.1, fieldsFormed_documentFields l h.2⟩

end

theorem rearranged_document {v : Value} (h : v.WellFormed) : v.document.Rearranged v.toJson := by
  rw [← sorted_document]
  exact Json.rearranged_sorted _ (wellFormed_document v h)

end Value

/-! ### Collections and pages -/

theorem Collection.sorted_document (c : Collection) : c.document.sorted = c.json := by
  have hrecord : ∀ r, ((c.model.objectValue r).document).sorted = c.model.json r :=
    fun r => Value.sorted_document _
  rw [Collection.document, Collection.json, Json.sorted, Json.sortedItems_eq_map, List.map_map]
  exact congrArg Json.array (List.map_congr_left fun r _ => hrecord r)

theorem Page.sorted_document (p : Page) : p.document.sorted = p.json := by
  have hfields : Json.sortedFields (p.fields p.data.document) = p.fields p.data.json := by
    rw [← p.data.sorted_document]
    rfl
  rw [Page.document, Page.json, Json.sorted, hfields]

/-- **Documents agree** with each other and with what they are documents of. A value comes back
from its document, structurally equal, exactly when JSON has values of every kind in it. Its
document in its own order and the one with sorted members are one but for the order of members, at
every depth; both have null for a float that is not finite, and one text for an identifier or a
moment. So the sorted document of a collection or a page is the text that it is exported as. -/
theorem documents_agree :
    (∀ v : Value, v.WellFormed →
      ((Value.ofJson v.toJson).same v = true ↔ v.isNative = true) ∧
        v.document.Rearranged v.toJson) ∧
      (∀ v : Value, v.document.sorted = v.toJson) ∧
      (∀ x : Double, x.isFinite = false →
        (Value.float x).document = .null ∧ (Value.float x).toJson = .null) ∧
      (∀ u : Uuid, (Value.uuid u).document = .string u.written ∧
        (Value.uuid u).toJson = .string u.written) ∧
      (∀ t : Timestamp, (Value.timestamp t).document = .string t.written ∧
        (Value.timestamp t).toJson = .string t.written) ∧
      (∀ c : Collection, c.document.sorted.text = c.json.text) ∧
      ∀ p : Page, p.document.sorted.text = p.json.text := by
  have hfloat : ∀ x : Double, x.isFinite = false →
      (Value.float x).document = .null ∧ (Value.float x).toJson = .null := by
    intro x hx
    simp [Value.document, Value.toJson, hx]
  refine ⟨fun v hv => ⟨v.same_ofJson_toJson_iff hv, Value.rearranged_document hv⟩,
    Value.sorted_document, hfloat, fun u => ⟨rfl, rfl⟩, fun t => ⟨rfl, rfl⟩, fun c => ?_,
    fun p => ?_⟩
  · rw [c.sorted_document]
  · rw [p.sorted_document]

/-- Members out of order, and an integer beside a float of the same number. -/
def nestedValue : Value :=
  .object [("b", .array [.int 1, .float ⟨0x3FF0000000000000⟩, .null]),
    ("a", .object [("y", .bool true), ("x", .text "t")])]

/-- The nested value comes back, and beside an infinite float it does not. -/
theorem documents_agree_nested :
    let infinity : Value := .float (Double.infinity false)
    nestedValue.WellFormed ∧ (Value.ofJson nestedValue.toJson).same nestedValue = true ∧
      nestedValue.document.Rearranged nestedValue.toJson ∧ infinity.document = .null ∧
      (Value.array [nestedValue, infinity]).WellFormed ∧
      ¬ (Value.ofJson (Value.array [nestedValue, infinity]).toJson).same
        (.array [nestedValue, infinity]) = true := by
  intro infinity
  obtain ⟨hback, -, hfloat, -⟩ := documents_agree
  have hformed : nestedValue.WellFormed := by
    simp [nestedValue, Value.WellFormed, Value.ItemsFormed, Value.FieldsFormed]
  have hlist : (Value.array [nestedValue, infinity]).WellFormed := ⟨hformed, trivial, trivial⟩
  have hlost : (Value.array [nestedValue, infinity]).isNative = false := by decide
  refine ⟨hformed, (hback _ hformed).1.2 (by decide), (hback _ hformed).2,
    (hfloat _ (by decide)).1, hlist, fun h => ?_⟩
  rw [(hback _ hlist).1, hlost] at h
  cases h

end ActiveRow
