import ActiveRow.Cast
import ActiveRow.Relation

/-!
# Models

A model ties records to a table: its keys and flags, the names it shows, the casts of its columns
and its relations. Attributes are read and written through the first cast declared for their
column; what is shown has every declared cast applied, in order.
-/

namespace ActiveRow

structure Model where
  table : String
  primaryKey : String := "id"
  /-- Whether creation and change times are kept. -/
  timestamps : Bool := false
  /-- Whether rows are deleted by marking them. -/
  softDeletes : Bool := false
  createdAt : String := "created_at"
  updatedAt : String := "updated_at"
  deletedAt : String := "deleted_at"
  hidden : List String := []
  visible : List String := []
  casts : List (String × Cast) := []
  relations : List (String × Relation) := []

namespace Model

instance : Inhabited Model := ⟨{ table := "" }⟩

/-! ### Relations to a model -/

def related (m : Model) (kind : RelationKind) (foreignKey : String) (localKey : Option String) :
    Relation :=
  { kind, table := m.table, primaryKey := m.primaryKey, hidden := m.hidden, visible := m.visible,
    deletedAt := if m.softDeletes then some m.deletedAt else none, foreignKey, localKey }

/-- Rows of the model whose `foreignKey` is the parent's key. -/
def asMany (m : Model) (foreignKey : String) (localKey : Option String := none) : Relation :=
  m.related .hasMany foreignKey localKey

/-- The row of the model whose `foreignKey` is the parent's key. -/
def asOne (m : Model) (foreignKey : String) (localKey : Option String := none) : Relation :=
  m.related .hasOne foreignKey localKey

/-- The row of the model whose primary key is the parent's `foreignKey`. -/
def asOwner (m : Model) (foreignKey : String) : Relation :=
  m.related .belongsTo m.primaryKey (some foreignKey)

/-! ### Records of a model -/

/-- An empty record. -/
def blank (m : Model) : Record :=
  { table := m.table, primaryKey := m.primaryKey, hidden := m.hidden, visible := m.visible }

/-- A stored record of a row. -/
def hydrate (m : Model) (row : Row) : Record := m.blank.hydrate row

def castOf? (m : Model) (key : String) : Option Cast := Pairs.get? key m.casts

/-- A value as its column holds it. -/
def castValue (m : Model) (key : String) (v : Value) : Value :=
  match m.castOf? key with
  | some c => c.apply v
  | none => v

/-- Reads an attribute through its cast. -/
def get? (m : Model) (r : Record) (key : String) : Option Value :=
  (r.get? key).map (m.castValue key)

/-- Writes an attribute through its cast. -/
def set (m : Model) (r : Record) (key : String) (v : Value) : Record :=
  r.set key (m.castValue key v)

def fill (m : Model) (r : Record) (pairs : List (String × Value)) : Record :=
  pairs.foldl (fun r e => m.set r e.1 e.2) r

/-- A new record with the given attributes. -/
def make (m : Model) (attributes : Attributes) : Record := m.fill m.blank attributes.entries

/-- Whether a record is marked as deleted. -/
def trashed (m : Model) (r : Record) : Bool :=
  m.softDeletes && (r.get? m.deletedAt).any fun v => !v.isNull

/-- What a record shows, with the casts applied. -/
def object (m : Model) (r : Record) : Attributes :=
  m.casts.foldl (fun o c => o.modify c.1 c.2.apply) r.object

def objectValue (m : Model) (r : Record) : Value := .object (m.object r).entries

def json (m : Model) (r : Record) : Json := (m.objectValue r).toJson

end Model

end ActiveRow
