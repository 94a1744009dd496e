import ActiveRow.Value.Order

/-!
# Records

A record is the attributes of one row and the attributes it had when they were last known to be
stored, the *baseline*. An attribute is dirty when it differs from the baseline. Related records
hang on a record under a relation's name. What a record shows is its visible attributes, then its
visible relations.

* `isDirty_iff`: a record is dirty exactly when it has a dirty attribute;
* `dirty_sublist`: the dirty attributes are some of the attributes, in their order.
-/

namespace ActiveRow

/-- What hangs on a record under a relation's name. -/
inductive Related (R : Type) where
  | one (record : Option R)
  | many (records : List R)

structure Record where
  table : String
  primaryKey : String
  attributes : Attributes := Keyed.empty
  baseline : Attributes := Keyed.empty
  /-- Whether the record is known to have a row. -/
  stored : Bool := false
  relations : List (String × Related Record) := []
  hidden : List String := []
  visible : List String := []

/-- Whether a name is shown: one of `visible`, if that names any, else none of `hidden`. -/
def shows (hidden visible : List String) (name : String) : Bool :=
  if visible.isEmpty then !hidden.contains name else visible.contains name

namespace Record

instance : Inhabited Record := ⟨{ table := "", primaryKey := "id" }⟩

/-- Turns a fetched row into a stored record without pending changes. -/
def hydrate (r : Record) (row : Row) : Record :=
  { r with attributes := row, baseline := row, stored := true }

def withVisibility (r : Record) (hidden visible : List String) : Record :=
  { r with hidden, visible }

def setStored (r : Record) (stored : Bool) : Record := { r with stored }

def get? (r : Record) (key : String) : Option Value := r.attributes.get? key

/-- The value of the primary key. -/
def key? (r : Record) : Option Value := r.get? r.primaryKey

/-- The value of the primary key when it is not null. -/
def knownKey? (r : Record) : Option Value := r.key?.filter fun k => !k.isNull

def set (r : Record) (key : String) (v : Value) : Record :=
  { r with attributes := r.attributes.insert key v }

def fill (r : Record) (pairs : List (String × Value)) : Record :=
  { r with attributes := r.attributes.insertMany pairs }

/-! ### Changes -/

def isDirtyKey (r : Record) (key : String) : Bool :=
  match r.attributes.get? key, r.baseline.get? key with
  | some v, some o => !v.same o
  | some _, none => true
  | none, _ => false

/-- The attributes that changed, in their order. -/
def dirty (r : Record) : Attributes := r.attributes.filter fun e => r.isDirtyKey e.1

def isDirty (r : Record) : Bool := r.attributes.entries.any fun e => r.isDirtyKey e.1

/-- Takes the current attributes for the stored ones. -/
def markClean (r : Record) : Record := { r with baseline := r.attributes }

def replaceAttributes (r : Record) (attributes : Attributes) : Record :=
  { r with attributes, baseline := attributes }

theorem isDirty_iff (r : Record) : r.isDirty = true ↔ r.dirty.entries ≠ [] := by
  simp [isDirty, dirty, Keyed.filter, List.any_eq_true, List.filter_eq_nil_iff]

theorem dirty_sublist (r : Record) : r.dirty.entries.Sublist r.attributes.entries :=
  List.filter_sublist

/-! ### Relations -/

def setRelation (r : Record) (name : String) (related : Related Record) : Record :=
  { r with relations := Pairs.put name related r.relations }

def relation? (r : Record) (name : String) : Option (Related Record) := Pairs.get? name r.relations

def showsName (r : Record) (name : String) : Bool := shows r.hidden r.visible name

mutual

/-- What a record shows: visible attributes, then visible relations. A relation takes the place of
an attribute of its name. -/
def object : Record → Attributes
  | ⟨_, _, attributes, _, _, relations, hidden, visible⟩ =>
    (attributes.filter fun e => shows hidden visible e.1).insertMany
      (relationValues hidden visible relations)

def relationValues (hidden visible : List String) :
    List (String × Related Record) → List (String × Value)
  | [] => []
  | (name, related) :: rest =>
    if shows hidden visible name then
      (name, relatedValue related) :: relationValues hidden visible rest
    else relationValues hidden visible rest

def relatedValue : Related Record → Value
  | .one none => .null
  | .one (some r) => .object r.object.entries
  | .many rs => .array (objectValues rs)

def objectValues : List Record → List Value
  | [] => []
  | r :: rest => .object r.object.entries :: objectValues rest

end

end Record

end ActiveRow
