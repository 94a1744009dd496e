import ActiveRow.Model
import ActiveRow.Source.Reader

/-!
# Blueprints

What a declaration says about its model, or why it says nothing that makes one.

* `model_table`: the model has the table of its blueprint.
-/

namespace ActiveRow

/-- Why a declared type does not become a model. -/
inductive Misdeclared where
  | misread (cause : Source.Misread)
  | noFields
  | unnamedFields
  | noRecord
  | unknownAttribute
  | columnPath
  | unknownCast (name : String)
  | unknownOption
  | noForeignKey
  | ownersLocalKey
  deriving DecidableEq

def Misdeclared.message : Misdeclared → String
  | misread cause => cause.message
  | noFields => "Model can only be derived for structs"
  | unnamedFields => "Model can only be derived for structs with named fields"
  | noRecord => "Model requires a `record: Record` field (or a field marked #[orm(record)])"
  | unknownAttribute => "unsupported orm attribute"
  | columnPath => "expected a column name"
  | unknownCast name => "unknown cast '" ++ name ++ "'"
  | unknownOption => "expected foreign_key, local_key or name"
  | noForeignKey => "relation requires foreign_key = \"...\""
  | ownersLocalKey => "belongs_to does not take local_key"

/-- A relation as it is declared, to a model that is known by its path. -/
structure DeclaredRelation where
  name : String
  kind : RelationKind
  model : String
  foreignKey : String
  localKey : Option String := none

/-- Everything that a declaration says about its model. -/
structure Blueprint where
  table : String
  primaryKey : String := "id"
  timestamps : Bool := false
  softDeletes : Bool := false
  hidden : List String := []
  visible : List String := []
  casts : List (String × Cast) := []
  relations : List DeclaredRelation := []
  /-- The field that holds the record. -/
  record : String
  /-- The other fields. -/
  others : List String := []

/-- The relation to the model that its path names. -/
def DeclaredRelation.relation (r : DeclaredRelation) (named : String → Model) : Relation :=
  match r.kind with
  | .hasMany => (named r.model).asMany r.foreignKey r.localKey
  | .hasOne => (named r.model).asOne r.foreignKey r.localKey
  | .belongsTo => (named r.model).asOwner r.foreignKey

namespace Blueprint

/-- The model of a blueprint, given the models that its relations name. -/
def model (b : Blueprint) (named : String → Model) : Model :=
  { table := b.table, primaryKey := b.primaryKey, timestamps := b.timestamps,
    softDeletes := b.softDeletes, hidden := b.hidden, visible := b.visible, casts := b.casts,
    relations := b.relations.map fun r => (r.name, r.relation named) }

theorem model_table (b : Blueprint) (named : String → Model) : (b.model named).table = b.table :=
  rfl

end Blueprint

end ActiveRow
