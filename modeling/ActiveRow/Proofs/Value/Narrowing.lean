import ActiveRow.Cast
import ActiveRow.Proofs.Json.Regular
import ActiveRow.Proofs.Postgres.RoundTrip
import ActiveRow.Proofs.Value.Indistinct

/-!
# Documents as values

A value holds the integers of signed words; a document also has those of unsigned ones. So a
document that becomes a value comes back with a double in the place of each integer that is too
large, the nearest one, and with nothing else changed. This is so for the documents in the columns
of a database and for the texts that are cast to documents: all of them are regular.

* `Json.mapIntegers_eq_self_iff`: a document whose integers are turned into others stays exactly
  when each of its integers does.
* `toJson_ofJson`: what comes back from a value is the narrowed document.
* `documents_narrowed`: which documents are lost, by which routes.
-/

namespace ActiveRow

namespace Json

/-! ### The integers of a document -/

mutual

/-- The integers of a document, at any depth. -/
def integers : Json → List Int
  | integer n => [n]
  | array items => itemsIntegers items
  | object fields => fieldsIntegers fields
  | null | bool _ | float _ | string _ => []

def itemsIntegers : List Json → List Int
  | [] => []
  | j :: rest => j.integers ++ itemsIntegers rest

def fieldsIntegers : List (String × Json) → List Int
  | [] => []
  | (_, j) :: rest => j.integers ++ fieldsIntegers rest

end

mutual

/-- The document with another document in the place of each of its integers. -/
def mapIntegers (f : Int → Json) : Json → Json
  | integer n => f n
  | array items => array (mapItems f items)
  | object fields => object (mapFields f fields)
  | null => null
  | bool b => bool b
  | float x => float x
  | string s => string s

def mapItems (f : Int → Json) : List Json → List Json
  | [] => []
  | j :: rest => j.mapIntegers f :: mapItems f rest

def mapFields (f : Int → Json) : List (String × Json) → List (String × Json)
  | [] => []
  | (k, j) :: rest => (k, j.mapIntegers f) :: mapFields f rest

end

variable (f : Int → Json)

theorem keys_mapFields (l : List (String × Json)) : Pairs.keys (mapFields f l) = Pairs.keys l := by
  induction l with
  | nil => rfl
  | cons e l ih => rw [mapFields, Pairs.keys_cons, ih, Pairs.keys_cons]

mutual

theorem mapIntegers_eq_self_iff : ∀ j : Json,
    j.mapIntegers f = j ↔ ∀ n ∈ j.integers, f n = integer n
  | null | bool _ | float _ | string _ => by simp [mapIntegers, integers]
  | integer n => by simp [mapIntegers, integers]
  | array items => by
    rw [mapIntegers, integers, array.injEq, mapItems_eq_self_iff items]
  | object fields => by
    rw [mapIntegers, integers, object.injEq, mapFields_eq_self_iff fields]

theorem mapItems_eq_self_iff : ∀ js : List Json,
    mapItems f js = js ↔ ∀ n ∈ itemsIntegers js, f n = integer n
  | [] => by simp [mapItems, itemsIntegers]
  | j :: js => by
    rw [mapItems, itemsIntegers, List.cons.injEq, mapIntegers_eq_self_iff j,
      mapItems_eq_self_iff js, List.forall_mem_append]

theorem mapFields_eq_self_iff : ∀ l : List (String × Json),
    mapFields f l = l ↔ ∀ n ∈ fieldsIntegers l, f n = integer n
  | [] => by simp [mapFields, fieldsIntegers]
  | (k, j) :: l => by
    rw [mapFields, fieldsIntegers, List.cons.injEq, Prod.mk.injEq, mapIntegers_eq_self_iff j,
      mapFields_eq_self_iff l, List.forall_mem_append]
    simp

end

/-! ### Narrowed documents -/

/-- An integer as a value holds it: when it is too large, as the double nearest to it. -/
def narrow (n : Int) : Json :=
  if n < 0x8000000000000000 then integer n else float (Double.ofInt n)

/-- The document with its integers as a value holds them. -/
def narrowed (j : Json) : Json := j.mapIntegers narrow

theorem narrow_eq_integer_iff {n : Int} : narrow n = integer n ↔ n < 0x8000000000000000 := by
  unfold narrow
  split
  · simp [*]
  · simp [*]

/-- **A document is not changed by narrowing** exactly when all its integers are signed words. -/
theorem narrowed_eq_self_iff (j : Json) :
    j.narrowed = j ↔ ∀ n ∈ j.integers, n < 0x8000000000000000 := by
  rw [narrowed, mapIntegers_eq_self_iff]
  simp only [narrow_eq_integer_iff]

end Json

namespace Value

/-! ### There and back -/

theorem toJson_ofInteger {n : Int} (h : (Json.integer n).Regular) :
    (ofInteger n).toJson = Json.narrow n := by
  obtain ⟨hlow, hhigh⟩ := h
  unfold ofInteger Json.narrow
  by_cases hn : n < 0x8000000000000000
  · have hw : Word.signed? n = some (Int64.ofInt n) := if_pos ⟨hlow, hn⟩
    rw [hw, if_pos hn]
    exact congrArg Json.integer (Word.toInt_of_signed? hw)
  · have hw : Word.signed? n = none := if_neg fun h => hn h.2
    have hfinite : (Double.ofInt n).isFinite = true :=
      (Double.isInt_ofInt (by omega)).1
    rw [hw, if_neg hn]
    exact if_pos hfinite

mutual

/-- **What comes back from a value** is the narrowed document. -/
theorem toJson_ofJson : ∀ j : Json, j.Regular → (ofJson j).toJson = j.narrowed
  | .null, _ | .bool _, _ | .string _, _ => rfl
  | .integer _, h => toJson_ofInteger h
  | .float _, h => if_pos h
  | .array items, h => congrArg Json.array (toJsonItems_ofJsonItems items h)
  | .object fields, h => by
    have hfields := toJsonFields_ofJsonFields fields h.2
    have hsorted : Json.sortFields (Json.mapFields Json.narrow fields) =
        Json.mapFields Json.narrow fields :=
      Json.sortFields_of_ascending (by rw [Json.keys_mapFields]; exact h.1)
    rw [ofJson, toJson, hfields, hsorted]
    rfl

theorem toJsonItems_ofJsonItems : ∀ js : List Json, Json.ItemsRegular js →
    toJsonItems (ofJsonItems js) = Json.mapItems Json.narrow js
  | [], _ => rfl
  | j :: js, h => congrArg₂ List.cons (toJson_ofJson j h.1) (toJsonItems_ofJsonItems js h.2)

theorem toJsonFields_ofJsonFields : ∀ l : List (String × Json), Json.FieldsRegular l →
    toJsonFields (ofJsonFields l) = Json.mapFields Json.narrow l
  | [], _ => rfl
  | (k, j) :: l, h => by
    rw [ofJsonFields, toJsonFields, Json.mapFields, toJson_ofJson j h.1,
      toJsonFields_ofJsonFields l h.2]
    rfl

end

/-! ### Documents that are read and written -/

theorem apply_json {s : String} {j : Json} (h : Json.ofText? s = some j) :
    Cast.json.apply (text s) = ofJson j := by
  simp [Cast.apply, isNull, Cast.toDocument, h]

theorem decodeDocument?_textBytes {s : String} {j : Json} (h : Json.ofText? s = some j) :
    Postgres.decodeDocument? (Postgres.textBytes s) = some (ofJson j) := by
  simp [Postgres.decodeDocument?, Postgres.decodeText?_textBytes, h]

/-- **Documents are narrowed, and not changed otherwise.** A regular document comes back from its
value with its integers narrowed, so it comes back as it was exactly when all of them are signed
words. An integer that is none is narrowed to a finite double, and no double is nearer to it. The
document of any text is regular, and its value is what the text is cast to and what a column of
documents is read as; when it is an array or an object, the value is written to such a column as
the narrowed document. -/
theorem documents_narrowed :
    (∀ j : Json, j.Regular → (ofJson j).toJson = j.narrowed ∧
      ((ofJson j).toJson = j ↔ ∀ n ∈ j.integers, n < 0x8000000000000000)) ∧
    (∀ n : Int, 0x8000000000000000 ≤ n → n < 0x10000000000000000 →
      Json.narrow n = .float (Double.ofInt n) ∧ (Double.ofInt n).isFinite = true ∧
        ∀ x : Double, ((Double.ofInt n).units - n * Double.unitsPerOne).natAbs ≤
          (x.units - n * Double.unitsPerOne).natAbs) ∧
    ∀ (s : String) (j : Json), Json.ofText? s = some j → j.Regular ∧
      Cast.json.apply (text s) = ofJson j ∧
      Postgres.decode? (.scalar .json) (some (Postgres.textBytes s)) = some (ofJson j) ∧
      Postgres.decode? (.scalar .jsonb) (some (1 :: Postgres.textBytes s)) = some (ofJson j) ∧
      ∀ scalar : Postgres.Scalar,
        ((∃ items, j = .array items) ∨ ∃ fields, j = .object fields) →
        Postgres.encode (.scalar scalar) (ofJson j) =
          Postgres.encodeDocument j.narrowed scalar := by
  refine ⟨fun j hj => ⟨toJson_ofJson j hj, ?_⟩, fun n hlow hhigh => ?_, fun s j hs => ?_⟩
  · rw [toJson_ofJson j hj, j.narrowed_eq_self_iff]
  · obtain ⟨hfinite, hunits⟩ := Double.isInt_ofInt (n := n) (by omega)
    refine ⟨if_neg (by omega), hfinite, fun x => ?_⟩
    rw [hunits]
    exact Double.kept_nearest n x
  · have hregular := Json.regular_ofText hs
    have hread := decodeDocument?_textBytes hs
    refine ⟨hregular, apply_json hs, hread, hread, fun scalar hcontainer => ?_⟩
    rw [← toJson_ofJson j hregular]
    rcases hcontainer with ⟨items, rfl⟩ | ⟨fields, rfl⟩
    · rfl
    · rfl

/-- A document in which nothing is narrowed; and a text in which an integer is. -/
theorem documents_narrowed_nested :
    let nested : Json := .object [("a", .array [.integer 1, .float ⟨0x4004000000000000⟩, .null]),
      ("b", .object [("c", .string "d"), ("n", .integer 0x7FFFFFFFFFFFFFFF)])]
    let large : Json := .array [.integer 0x8000000000000400]
    nested.Regular ∧ (ofJson nested).toJson = nested ∧
      Json.ofText? "[9223372036854776832]" = some large ∧
      (Cast.json.apply (text "[9223372036854776832]")).toJson =
        .array [.float ⟨0x43E0000000000000⟩] := by
  intro nested large
  obtain ⟨hdocuments, -, htexts⟩ := documents_narrowed
  have hregular : nested.Regular := by
    simp only [nested, Json.Regular, Json.ItemsRegular, Json.FieldsRegular, Pairs.keys_cons,
      Pairs.keys_nil, List.pairwise_cons, String.lt_iff_toList_lt]
    decide
  have hsmall : ∀ n ∈ nested.integers, n < 0x8000000000000000 := by
    simp [nested, Json.integers, Json.itemsIntegers, Json.fieldsIntegers]
  have hread : Json.ofText? "[9223372036854776832]" = some large := by cbv
  obtain ⟨hlarge, hcast, -⟩ := htexts _ _ hread
  refine ⟨hregular, (hdocuments nested hregular).2.2 hsmall, hread, ?_⟩
  rw [hcast, (hdocuments large hlarge).1]
  have hdouble : Double.ofInt 0x8000000000000400 = ⟨0x43E0000000000000⟩ := by decide +kernel
  simp [large, Json.narrowed, Json.mapIntegers, Json.mapItems, Json.narrow, hdouble]

/-- The largest unsigned word comes back as a double. -/
theorem largest_integer_lost :
    let j : Json := .array [.integer 0xFFFFFFFFFFFFFFFF]
    Json.ofText? "[18446744073709551615]" = some j ∧ j.Regular ∧
      (ofJson j).toJson = .array [.float ⟨0x43F0000000000000⟩] ∧ (ofJson j).toJson ≠ j := by
  intro j
  have hdouble : Double.ofInt 0xFFFFFFFFFFFFFFFF = ⟨0x43F0000000000000⟩ := by decide +kernel
  have hregular : j.Regular := by simp [j, Json.Regular, Json.ItemsRegular]
  have hback : (ofJson j).toJson = .array [.float ⟨0x43F0000000000000⟩] := by
    rw [toJson_ofJson j hregular]
    simp [j, Json.narrowed, Json.mapIntegers, Json.mapItems, Json.narrow, hdouble]
  refine ⟨by cbv, hregular, hback, ?_⟩
  rw [hback]
  simp [j]

end Value

end ActiveRow
