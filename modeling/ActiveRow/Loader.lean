import ActiveRow.Query.Fetch
import ActiveRow.Relation
import ActiveRow.Value.Document

/-!
# Loading relations

A loader attaches related records to a list of records under a name. The loader of a relation
fetches the related rows of all records with one statement.
-/

namespace ActiveRow

/-- Attaches related records, under a name, to each of a list of records. -/
abbrev Loader (σ : Type) := Connection σ → String → List Record → Action σ (List Record)

namespace Relation

variable {σ : Type}

/-- The query for the related rows of all records with these values. -/
def query (rel : Relation) (keys : List Value) : Query :=
  let q := (Query.on rel.table).filter .and (.among rel.foreignKey keys false)
  match rel.deletedAt with
  | some column => q.filter .and (.isNull column false)
  | none => q

/-- The values without those that equal an earlier one. -/
def distinctValues (vs : List Value) : List Value :=
  vs.foldl (fun seen v => if seen.any v.same then seen else seen ++ [v]) []

/-- The values that related rows must have. -/
def localValues (rel : Relation) (parents : List Record) : List Value :=
  distinctValues (parents.filterMap rel.localValue?)

/-- The rows that belong to a record: those whose value has the same plain text. -/
def matching (rel : Relation) (parent : Record) (rows : List Row) : List Record :=
  match rel.localValue? parent with
  | some k =>
    (rows.filter fun row => (rel.foreignValue? row).any fun v => v.plain == k.plain).map rel.record
  | none => []

/-- What hangs on a record, given the related rows of all. -/
def related (rel : Relation) (parent : Record) (rows : List Row) : Related Record :=
  match rel.kind with
  | .hasMany => .many (rel.matching parent rows)
  | .hasOne | .belongsTo => .one (rel.matching parent rows).head?

/-- The related rows of all records. Without a value among these there are none. -/
def relatedRows (rel : Relation) (c : Connection σ) (parents : List Record) :
    Action σ (List Row) :=
  let keys := rel.localValues parents
  if keys.isEmpty then pure [] else (rel.query keys).get c

/-- Loads the relation of all records under a name. Gives how that ended, and the records behind it:
on a fault they are as they were. -/
def load (rel : Relation) (c : Connection σ) (name : String) (parents : List Record) :
    StateM σ (Except Fault Unit × List Record) := do
  match ← (rel.relatedRows c parents).run with
  | .ok rows => pure (.ok (), parents.map fun p => p.setRelation name (rel.related p rows))
  | .error cause => pure (.error cause, parents)

def loader (rel : Relation) : Loader σ := fun c name parents => do
  let (result, records) ← liftM (rel.load c name parents)
  .ofExcept (result.map fun () => records)

end Relation

end ActiveRow
