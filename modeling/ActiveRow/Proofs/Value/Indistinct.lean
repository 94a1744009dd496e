import ActiveRow.Proofs.Json.Told
import ActiveRow.Proofs.Timestamp
import ActiveRow.Proofs.Value.Document
import ActiveRow.Proofs.Value.Identity

/-!
# What identities tell

Plain texts tell most values of one kind from each other. They do not tell a NaN from another, a
leap second within a minute from the second that follows, and arrays and objects with one document.
A document forgets which texts were identifiers or moments and which nulls were floats, so values
that JSON cannot hold have the identity of a value that differs from them.

* `identity_eq_iff_indistinct`: what it means to have one identity.
* `same_of_indistinct`: told values with one identity are equal.
* `exists_indistinct`: a value that is not told has the identity of one that differs from it.
-/

namespace ActiveRow

namespace Json

/-- Sorted members stay. -/
theorem sortFields_of_ascending {l : List (String × Json)}
    (h : (Pairs.keys l).Pairwise (· < ·)) : sortFields l = l := by
  induction l with
  | nil => rfl
  | cons e l ih =>
    obtain ⟨k, v⟩ := e
    rw [Pairs.keys_cons, List.pairwise_cons] at h
    rw [sortFields, ih h.2]
    cases l with
    | nil => rfl
    | cons e l =>
      obtain ⟨k', v'⟩ := e
      have hlt : k < k' := h.1 k' (by simp)
      rw [addField, if_neg hlt.ne, if_pos hlt]

end Json

open Collection (identity)

namespace Value

/-! ### Documents of values -/

mutual

/-- Floats that are not finite are null in a document. -/
theorem finite_toJson : ∀ v : Value, v.toJson.Finite
  | null | bool _ | int _ | text _ | uuid _ | timestamp _ => trivial
  | float x => by
    rw [toJson]
    split
    · assumption
    · trivial
  | array items => finite_toJsonItems items
  | object fields => by
    rw [toJson]
    refine (Json.fieldsFinite_iff _).2 fun e he => ?_
    exact (Json.fieldsFinite_iff _).1 (finite_toJsonFields fields) e (Json.mem_sortFields he)

theorem finite_toJsonItems : ∀ vs : List Value, Json.ItemsFinite (toJsonItems vs)
  | [] => trivial
  | v :: vs => ⟨finite_toJson v, finite_toJsonItems vs⟩

theorem finite_toJsonFields : ∀ l : List (String × Value), Json.FieldsFinite (toJsonFields l)
  | [] => trivial
  | (_, v) :: l => ⟨finite_toJson v, finite_toJsonFields l⟩

end

mutual

theorem wellFormed_toJson : ∀ v : Value, v.toJson.WellFormed
  | null | bool _ | int _ | text _ | uuid _ | timestamp _ => trivial
  | float x => by
    rw [toJson]
    split <;> trivial
  | array items => itemsFormed_toJsonItems items
  | object fields =>
    Json.wellFormed_sortFields ((Json.fieldsFormed_iff _).1 (fieldsFormed_toJsonFields fields))

theorem itemsFormed_toJsonItems : ∀ vs : List Value, Json.ItemsFormed (toJsonItems vs)
  | [] => trivial
  | v :: vs => ⟨wellFormed_toJson v, itemsFormed_toJsonItems vs⟩

theorem fieldsFormed_toJsonFields : ∀ l : List (String × Value),
    Json.FieldsFormed (toJsonFields l)
  | [] => trivial
  | (_, v) :: l => ⟨wellFormed_toJson v, fieldsFormed_toJsonFields l⟩

end

mutual

/-- **What comes back from a document** has that document. -/
theorem toJson_ofJson_toJson : ∀ v : Value, (ofJson v.toJson).toJson = v.toJson
  | null | bool _ | text _ | uuid _ | timestamp _ => rfl
  | int n => by rw [toJson, ofJson, ofInteger, Word.signed?_toInt, toJson]
  | float x => by
    rw [toJson]
    split
    · rw [ofJson, toJson, if_pos ‹_›]
    · rfl
  | array items => by
    rw [toJson, ofJson, toJson, toJson_ofJson_items items]
  | object fields => by
    have hfields : toJsonFields (ofJsonFields (Json.sortFields (toJsonFields fields))) =
        Json.sortFields (toJsonFields fields) := by
      rw [toJsonFields_eq_map, ofJsonFields_eq_map, List.map_map]
      refine (List.map_congr_left fun e he => ?_).trans (List.map_id _)
      exact Prod.ext rfl (toJson_ofJson_fields fields e (Json.mem_sortFields he))
    rw [toJson, ofJson, toJson, hfields,
      Json.sortFields_of_ascending (Json.ascending_sortFields _)]

theorem toJson_ofJson_items : ∀ vs : List Value,
    toJsonItems (ofJsonItems (toJsonItems vs)) = toJsonItems vs
  | [] => rfl
  | v :: vs => by
    rw [toJsonItems, ofJsonItems, toJsonItems, toJson_ofJson_toJson v, toJson_ofJson_items vs]

theorem toJson_ofJson_fields : ∀ l : List (String × Value), ∀ e ∈ toJsonFields l,
    (ofJson e.2).toJson = e.2
  | (k, v) :: l, e, he => by
    rcases List.mem_cons.1 he with he | he
    · exact he ▸ toJson_ofJson_toJson v
    · exact toJson_ofJson_fields l e he

end

/-! ### What texts tell -/

/-- **Two values with one identity**: they are the same, both are NaN, they are moments with one
clock, or they are two arrays or two objects with one document. -/
inductive Indistinct : Value → Value → Prop
  | refl (v : Value) : Indistinct v v
  | nan {x y : Double} (hx : x.isNaN = true) (hy : y.isNaN = true) :
      Indistinct (float x) (float y)
  | timestamp {t u : Timestamp} (h : t.clock = u.clock) : Indistinct (timestamp t) (timestamp u)
  | array {l m : List Value} (h : (array l).toJson = (array m).toJson) :
      Indistinct (array l) (array m)
  | object {l m : List (String × Value)} (h : (object l).toJson = (object m).toJson) :
      Indistinct (object l) (object m)

theorem indistinct_of_identity_eq {v w : Value}
    (h : identity (some v) = identity (some w)) : v.Indistinct w := by
  obtain ⟨hkind, hplain⟩ := (identity_eq_iff v w).1 h
  cases oneKind_of_kind_eq hkind with
  | float x y =>
    rcases (Decimal.plain_eq_iff x y).1 hplain with rfl | ⟨hx, hy⟩
    · exact .refl _
    · exact .nan hx hy
  | timestamp t u => exact .timestamp ((Timestamp.written_eq_iff t u).1 hplain)
  | array l m => exact .array (Json.text_inj (finite_toJson _) (finite_toJson _) hplain)
  | object l m => exact .object (Json.text_inj (finite_toJson _) (finite_toJson _) hplain)
  | null | bool | int | text | uuid =>
    rw [(identity_key_iff (by rfl) _).1 h]
    exact .refl _

/-- **Identities tell values** that are not indistinct, and no others. -/
theorem identity_eq_iff_indistinct (v w : Value) :
    identity (some v) = identity (some w) ↔ v.Indistinct w := by
  refine ⟨indistinct_of_identity_eq, fun h => ?_⟩
  rw [identity_eq_iff]
  cases h with
  | refl => exact ⟨rfl, rfl⟩
  | nan hx hy => exact ⟨rfl, (Decimal.plain_eq_iff _ _).2 (.inr ⟨hx, hy⟩)⟩
  | timestamp h => exact ⟨rfl, (Timestamp.written_eq_iff _ _).2 h⟩
  | array h => exact ⟨rfl, congrArg Json.text h⟩
  | object h => exact ⟨rfl, congrArg Json.text h⟩

/-- Whether a value is told from every other by its identity, as long as the other is too: no NaN,
no leap second within a minute, and no array or object with something that JSON cannot hold. -/
def isTold : Value → Bool
  | float x => !x.isNaN
  | timestamp t => t.isRegular
  | array items => itemsNative items
  | object fields => fieldsNative fields
  | _ => true

/-- Two values with one document that both come back from it are equal. -/
theorem same_of_toJson_eq {v w : Value} (hv : v.WellFormed) (hw : w.WellFormed)
    (hvn : v.isNative = true) (hwn : w.isNative = true) (h : v.toJson = w.toJson) :
    v.same w = true := by
  have hback : (ofJson v.toJson).same v = true := (same_ofJson_toJson_iff v hv).2 hvn
  have hback' : (ofJson w.toJson).same w = true := (same_ofJson_toJson_iff w hw).2 hwn
  rw [← h] at hback'
  exact same_trans (same_symm (wellFormed_ofJson _ (wellFormed_toJson v)) hv hback) hback'

/-- **Told values with one identity are equal.** -/
theorem same_of_indistinct {v w : Value} (hv : v.WellFormed) (hw : w.WellFormed)
    (hvt : v.isTold = true) (hwt : w.isTold = true) (h : v.Indistinct w) : v.same w = true := by
  cases h with
  | refl =>
    cases v with
    | float x =>
      rw [same, Double.sameNumber_self_iff]
      simpa [isTold] using hvt
    | array items => exact same_of_toJson_eq hv hv hvt hvt rfl
    | object fields => exact same_of_toJson_eq hv hv hvt hvt rfl
    | _ => simp [same]
  | nan hx hy => simp [isTold, hx] at hvt
  | timestamp h =>
    rw [Timestamp.clock_inj hvt hwt h]
    simp [same]
  | array h => exact same_of_toJson_eq hv hw hvt hwt h
  | object h => exact same_of_toJson_eq hv hw hvt hwt h

/-- A leap second within a minute reads as the second that follows. -/
theorem exists_clock_eq {t : Timestamp} (h : t.isRegular = false) :
    ∃ u : Timestamp, t.clock = u.clock ∧ u ≠ t := by
  have hn := t.nanos_lt
  have hs := t.seconds_range
  simp only [Timestamp.isRegular, Bool.or_eq_false_iff, decide_eq_false_iff_not] at h
  refine ⟨⟨t.seconds + 1, t.nanos - 1000000000, by omega, by omega⟩, ?_, fun heq => ?_⟩
  · simp only [Timestamp.clock, Timestamp.Clock.mk.injEq]
    omega
  · have hseconds := congrArg Timestamp.seconds heq
    dsimp only at hseconds
    omega

/-- **A value that is not told** has the identity of a value that differs from it. -/
theorem exists_indistinct {v : Value} (hv : v.WellFormed) (h : v.isTold = false) :
    ∃ w, w.WellFormed ∧ v.Indistinct w ∧ w.same v = false := by
  -- for arrays and objects, the value that comes back from the document
  have hback : v.isNative = false → (ofJson v.toJson).same v = false := fun hnative => by
    rw [← Bool.not_eq_true, same_ofJson_toJson_iff v hv, hnative]
    exact Bool.false_ne_true
  have hformed := wellFormed_ofJson _ (wellFormed_toJson v)
  cases v with
  | float x =>
    have hnan : x.isNaN = true := by simpa [isTold] using h
    exact ⟨_, hv, .refl _, by simp [same, Double.sameNumber, hnan]⟩
  | timestamp t =>
    obtain ⟨u, hclock, hne⟩ := exists_clock_eq h
    exact ⟨timestamp u, trivial, .timestamp hclock, by simpa [same] using hne⟩
  | array items =>
    exact ⟨_, hformed, .array (toJson_ofJson_toJson (array items)).symm, hback h⟩
  | object fields =>
    exact ⟨_, hformed, .object (toJson_ofJson_toJson (object fields)).symm, hback h⟩
  | _ => cases h

end Value

end ActiveRow
