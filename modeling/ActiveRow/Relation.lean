import ActiveRow.Record

/-!
# Relations

A relation says how rows of another table belong to a record: which of their columns holds the
value of which attribute of the record, and how many of them there may be. It carries what is
needed to make records of the related rows.
-/

namespace ActiveRow

inductive RelationKind where
  /-- Any number of related rows point at the record. -/
  | hasMany
  /-- One related row at most points at the record. -/
  | hasOne
  /-- The record points at one related row. -/
  | belongsTo
  deriving DecidableEq

namespace RelationKind

def name : RelationKind → String
  | hasMany => "has_many"
  | hasOne => "has_one"
  | belongsTo => "belongs_to"

def ofName? (name : String) : Option RelationKind :=
  [hasMany, hasOne, belongsTo].find? (·.name == name)

theorem ofName?_name (kind : RelationKind) : ofName? kind.name = some kind := by
  cases kind <;> decide

end RelationKind

structure Relation where
  kind : RelationKind
  table : String
  primaryKey : String
  hidden : List String
  visible : List String
  /-- The column that marks deleted rows, when the related rows are deleted by marking. -/
  deletedAt : Option String
  /-- The column of the related rows that is matched. -/
  foreignKey : String
  /-- The attribute of the record that is matched; its primary key if none is named. -/
  localKey : Option String

namespace Relation

/-- The value of a record that related rows must have, if it is not null. -/
def localValue? (rel : Relation) (parent : Record) : Option Value :=
  (parent.get? (rel.localKey.getD parent.primaryKey)).filter fun k => !k.isNull

/-- The value of a related row that a record must have, if it is not null. -/
def foreignValue? (rel : Relation) (row : Row) : Option Value :=
  (row.get? rel.foreignKey).filter fun k => !k.isNull

/-- The record of a related row. -/
def record (rel : Relation) (row : Row) : Record :=
  Record.hydrate
    { table := rel.table, primaryKey := rel.primaryKey, hidden := rel.hidden,
      visible := rel.visible } row

end Relation

end ActiveRow
