import ActiveRow.Declaration.Blueprint
import ActiveRow.Source.Lexeme.Reading
import ActiveRow.Source.Type
import ActiveRow.Text.Naming

/-!
# Attributes of declared types

An attribute is a list of items, which say one by one what a blueprint takes over. Names, types and
values stand in them as they are written, so an item is put together from its parts and then read
as a whole, and it is what it reads like.

* `readItems_table`: the name of a table is taken over as it is.
-/

namespace ActiveRow

open Source
open Source.Reader

/-- An item of an attribute. -/
inductive Item where
  | table (name : String)
  | primaryKey (name : String)
  | timestamps
  | softDeletes
  | hidden (names : List String)
  | visible (names : List String)
  /-- The columns, as they are written, with the names of their casts. -/
  | casts (columns : List (String × String))
  /-- A relation to a model by its path; names of options are also as they are written. A comma may
  stand behind it. -/
  | relation (kind : RelationKind) (model : String) (options : List (String × String))
      (endsInComma : Bool)
  | word (written : String)

namespace Item

/-- A name with a quoted value. -/
def assigned (name : List Lexeme) (value : String) : List Lexeme :=
  name ++ [.sign '=' false, .quoted value]

def source : Item → List Lexeme
  | table name => assigned [.name "table"] name
  | primaryKey name => assigned [.name "primary_key"] name
  | timestamps => [.name "timestamps"]
  | softDeletes => [.name "soft_deletes"]
  | hidden names => .name "hidden" :: inBrackets (names.map .quoted |>.intersperse .comma)
  | visible names => .name "visible" :: inBrackets (names.map .quoted |>.intersperse .comma)
  | casts columns =>
    .name "cast" :: inBrackets (List.intercalate [.comma] (columns.map fun (column, cast) =>
      assigned (lexemes column) cast))
  | relation kind model options endsInComma =>
    .name kind.name :: inBrackets (lexemes model ++
      (options.flatMap fun (name, value) => .comma :: assigned (lexemes name) value) ++
      if endsInComma then [.comma] else [])
  | word written => lexemes written

end Item

/-! ### Items in general -/

/-- A reader that may also find that what it reads does not declare anything. -/
abbrev ItemReader := StateT Place (Except Misdeclared)

instance : MonadLift Reader ItemReader where
  monadLift r := fun place => (r.run place).mapError .misread

/-- A reader of items takes over what another reader gives, and no more. -/
theorem ItemReader.run_lift {α : Type} {r : Reader α} {a : α} {p p' : Place} :
    (liftM r : ItemReader α).run p = .ok (a, p') ↔ r.run p = .ok (a, p') := by
  have hrun : (liftM r : ItemReader α).run p = (r.run p).mapError .misread := rfl
  rw [hrun]
  cases r.run p with
  | error => exact ⟨nofun, nofun⟩
  | ok x => exact ⟨fun h => congrArg _ (Except.ok.inj h), fun h => congrArg _ (Except.ok.inj h)⟩

/-- Reads the name of an item, which is none if it is a path. -/
def itemName : Reader (Option String) := do
  let isRooted ← sign? "::"
  let ts ← left
  if ts.isEmpty then fail "nested attribute"
  if !startsAnyName ts then throw (.unnamed (startsLiteral ts))
  let first ← anyName
  let isPath ← repeating (fun isPath => do
    if ← sign? "::" then
      discard anyName
      return .yield true
    return .done isPath) isRooted
  return if isPath then none else some first

/-- Reads one item or more, between commas. -/
def itemList {σ : Type} (item : σ → Option String → ItemReader σ) (s : σ) : ItemReader σ :=
  repeating (fun s => do
    let s ← item s (← itemName)
    if (← left).isEmpty then return .done s
    sign ","
    return if (← left).isEmpty then .done s else .yield s) s

/-- Reads a quoted value. -/
def value : Reader String := do
  sign "="
  text

/-! ### Casts -/

/-- The casts by name, in any letter case. -/
def Declaration.castNamed (name : String) : Except Misdeclared Cast :=
  let name := Text.lower name
  if ["int", "integer"].contains name then .ok .integer
  else if ["float", "double", "real"].contains name then .ok .float
  else if ["bool", "boolean"].contains name then .ok .boolean
  else if ["string", "text"].contains name then .ok .string
  else if ["json", "array", "object"].contains name then .ok .json
  else if ["datetime", "timestamp", "date"].contains name then .ok .datetime
  else .error (.unknownCast name)

/-- Reads the cast of a column, which is no path. -/
def castItem (casts : List (String × Cast)) : Option String → ItemReader (List (String × Cast))
  | some column => do
    let cast ← Declaration.castNamed (← value)
    return casts ++ [(column, cast)]
  | none => throw .columnPath

/-! ### Relations -/

namespace DeclaredRelation

def isOption (name : String) : Bool := ["foreign_key", "local_key", "name", "as"].contains name

/-- The value of the last option of one of the given names. -/
def option? (names : List String) (options : List (String × String)) : Option String :=
  (options.reverse.find? fun o => names.contains o.1).map (·.2)

/-- Reads options, each behind a comma. The last comma may have none behind it. -/
def options : ItemReader (List (String × String)) :=
  repeating (fun read => do
    if !(← sign? ",") || (← left).isEmpty then return .done read
    let name ← anyName
    let value ← value
    if !isOption name then throw .unknownOption
    return .yield (read ++ [(name, value)])) []

/-- The name of a relation that is given none, from the last name of its model's path. -/
def defaultName (kind : RelationKind) (last : String) : String :=
  match kind with
  | .hasMany => Text.snake last ++ "s"
  | .hasOne | .belongsTo => Text.snake last

/-- The relation to a model by a path with these options. -/
def ofOptions (kind : RelationKind) (last model : String) (options : List (String × String)) :
    Except Misdeclared DeclaredRelation := do
  let some foreignKey := option? ["foreign_key"] options | throw .noForeignKey
  let localKey := option? ["local_key"] options
  if kind = .belongsTo ∧ localKey.isSome then throw .ownersLocalKey
  return { name := (option? ["name", "as"] options).getD (defaultName kind last)
           kind, model, foreignKey, localKey }

/-- The text of a path, without spaces. -/
def modelText (path : List Lexeme) : String :=
  String.ofList ((path.flatMap fun t => t.written.toList).filter (· ≠ ' '))

def reader (kind : RelationKind) : ItemReader DeclaredRelation := do
  let behind ← enter .round
  let (path, written) ← taken modelPath
  let relation ← ofOptions kind path.last (modelText written) (← options)
  leave behind
  return relation

end DeclaredRelation

/-! ### What items say -/

namespace Blueprint

/-- Reads texts in round brackets. -/
def names : Reader (List String) := inGroup .round (listItems text)

/-- Reads what follows the name of an item. -/
def readItem (b : Blueprint) (name : Option String) : ItemReader Blueprint := do
  if name = some "table" then return { b with table := ← value }
  if name = some "primary_key" then return { b with primaryKey := ← value }
  if name = some "timestamps" then return { b with timestamps := true }
  if name = some "soft_deletes" then return { b with softDeletes := true }
  if name = some "hidden" then return { b with hidden := b.hidden ++ (← names) }
  if name = some "visible" then return { b with visible := b.visible ++ (← names) }
  if name = some "cast" then
    let behind ← enter .round
    let casts ← itemList castItem b.casts
    leave behind
    return { b with casts }
  match name.bind RelationKind.ofName? with
  | some kind => return { b with relations := b.relations ++ [← DeclaredRelation.reader kind] }
  | none => throw .unknownAttribute

/-- The blueprint with what an attribute adds to it. -/
def readItems (b : Blueprint) (items : List Item) : Except Misdeclared Blueprint := do
  let source := List.intercalate [.comma] (items.map Item.source)
  if source.isEmpty then return b
  let (b, place) ← (itemList readItem b).run { lexemes := source }
  match place.leftOver with
  | some within => throw (.misread (.leftOver within))
  | none => return b

theorem readItems_table (b : Blueprint) (name : String) :
    readItems b [.table name] = .ok { b with table := name } := by
  rfl

end Blueprint

end ActiveRow
