import ActiveRow.Declaration.Attribute

/-!
# Declarations

A declared type becomes a model when it has named fields and one of them holds the record. The
attributes that it carries say the rest, and what they leave open follows from the names of the
types: tables are named by the plural of the type, relations by the related type.

* `Declaration.blueprint_append`: attributes are read in order, each on top of those before it.
* `Declaration.blueprint_table`: the table that is named last is the one that is used.
* `Declaration.fields_of_blueprint`: only a type with named fields becomes a model, and one of them
  holds the record.
-/

namespace ActiveRow

open Source (Lexeme lexemes)

/-! ### Fields -/

/-- A field of a declared type, all as it is written. -/
structure Field where
  name : String
  type : String
  mark : Option String := none

namespace Field

/-- The name of a field, behind what says who may see it. -/
def ident (f : Field) : String :=
  match (lexemes f.name).getLast? with
  | some (.name w) => w
  | _ => f.name

/-- The mark of a field and what stands before its name. -/
def attributes (f : Field) : List Lexeme :=
  (f.mark.elim [] fun mark => lexemes ("#[" ++ mark ++ "]")) ++ lexemes f.name

/-- Whether attributes say that a field holds the record. -/
def marksRecord : List Lexeme → Bool
  | [] => false
  | t :: ts =>
    match t :: ts with
    | .sign '#' _ :: .opens .square :: .name orm :: .opens _ :: .name record :: .closes _ ::
        .closes _ :: _ => (orm == "orm" && record == "record") || marksRecord ts
    | _ => marksRecord ts

/-- The last name of the type of a field, if it is a path. -/
def typeName? (f : Field) : Option String :=
  match Source.typeOf? (lexemes f.type) with
  | some (.path p) => some p.last
  | _ => none

/-- The field that holds the record: the first that is marked, else the one named `record`, else
the first whose type is named `Record`. -/
def record? (fields : List Field) : Option Field :=
  (fields.find? fun f => marksRecord f.attributes).or
    ((fields.find? fun f => f.ident == "record").or
      (fields.find? fun f => f.typeName? == some "Record"))

end Field

/-! ### Declared types -/

inductive Shape where
  | fields (fields : List Field)
  | positional
  | bare
  | enumeration
  | union

structure Declaration where
  /-- The name, behind which type parameters may stand. -/
  name : String
  shape : Shape
  /-- The items of each attribute. -/
  attributes : List (List Item) := []

namespace Declaration

/-- The name of the table of a type that names none. -/
def tableName (name : String) : String := Text.plural (Text.snake name)

/-- The name of a type, before its parameters. -/
def typeName (written : String) : String :=
  match lexemes written with
  | .name w :: _ => w
  | _ => written

def blueprint (d : Declaration) : Except Misdeclared Blueprint :=
  match d.shape with
  | .enumeration | .union => .error .noFields
  | .positional | .bare => .error .unnamedFields
  | .fields fields =>
    match Field.record? fields with
    | none => .error .noRecord
    | some record =>
      d.attributes.foldlM Blueprint.readItems
        { table := tableName (typeName d.name), record := record.ident
          others := (fields.map Field.ident).filter (· != record.ident) }

theorem blueprint_append {name : String} {shape : Shape} {before after : List (List Item)} :
    blueprint { name, shape, attributes := before ++ after } =
      (blueprint { name, shape, attributes := before }).bind fun b =>
        after.foldlM Blueprint.readItems b := by
  unfold blueprint
  cases shape with
  | fields fields =>
    cases h : Field.record? fields with
    | none => simp [h, Except.bind]
    | some record => simp [h, List.foldlM_append, bind]
  | _ => simp [Except.bind]

theorem blueprint_table {name table : String} {shape : Shape} {attributes : List (List Item)}
    {b : Blueprint} (h : blueprint { name, shape, attributes } = .ok b) :
    blueprint { name, shape, attributes := attributes ++ [[.table table]] } =
      .ok { b with table } := by
  rw [blueprint_append, h]
  simp [Except.bind, Blueprint.readItems_table, pure, bind, Except.pure]

theorem fields_of_blueprint {d : Declaration} {b : Blueprint} (h : d.blueprint = .ok b) :
    ∃ fields record, d.shape = .fields fields ∧ Field.record? fields = some record := by
  unfold blueprint at h
  split at h
  · cases h
  · cases h
  · cases h
  · cases h
  · next fields hs =>
    split at h
    · cases h
    · next record hr => exact ⟨fields, record, hs, hr⟩

end Declaration

end ActiveRow
