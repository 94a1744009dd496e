import ActiveRow.Loader
import ActiveRow.Model

/-!
# Selections

A selection is a query for records of a model, with relations to load for them. Where the model
marks deleted rows, a selection leaves those out, keeps them, or keeps nothing else: the test for
the mark is added when the selection runs.

* `wheres_isolate`: an isolated predicate is one clause, or has neither alternatives nor raw tests
  at its top.
-/

namespace ActiveRow

/-- Which rows a selection sees, of a model that marks deleted rows. -/
inductive Trashed where
  | exclude
  | include
  | only
  deriving DecidableEq

namespace Clause

/-- Whether a clause may turn the predicate it stands in into an alternative. -/
def isLoose : Clause → Bool
  | test link t => link = .or || (match t with | .raw _ => true | _ => false)
  | group link _ => link = .or

end Clause

namespace Query

/-- Puts the tests into one group when one of them may be an alternative, so that a further test
applies to all of them. -/
def isolate (q : Query) : Query :=
  if q.wheres.any Clause.isLoose then { q with wheres := [.group .and q.wheres] } else q

theorem wheres_isolate (q : Query) :
    q.isolate.wheres = [.group .and q.wheres] ∨
      (q.isolate.wheres = q.wheres ∧ ∀ w ∈ q.wheres, w.isLoose = false) := by
  unfold isolate
  split
  · exact .inl rfl
  · rename_i h
    exact .inr ⟨rfl, by simpa using h⟩

end Query

structure Selection (σ : Type) where
  model : Model
  query : Query
  /-- The names of the relations to load. -/
  eager : List String
  /-- Loaders that take the place of the model's relations. -/
  loaders : List (String × Loader σ)
  trashed : Trashed

namespace Selection

variable {σ : Type}

/-- The selection of all records of a model. -/
def all (m : Model) : Selection σ :=
  { model := m, query := Query.on m.table, eager := [], loaders := [], trashed := .exclude }

/-- Changes the query. -/
def refine (s : Selection σ) (f : Query → Query) : Selection σ := { s with query := f s.query }

/-! ### Relations to load -/

/-- Loads these relations as well. -/
def load (s : Selection σ) (names : List String) : Selection σ :=
  { s with
    eager := names.foldl (fun seen n => if seen.contains n then seen else seen ++ [n]) s.eager }

def withLoader (s : Selection σ) (name : String) (loader : Loader σ) : Selection σ :=
  { s with loaders := Pairs.put name loader s.loaders }

/-- The loader of a relation: one of the selection's own, else that of the model's relation. -/
def loader? (s : Selection σ) (name : String) : Except Fault (Loader σ) :=
  match Pairs.get? name s.loaders, Pairs.get? name s.model.relations with
  | some loader, _ => .ok loader
  | none, some rel => .ok rel.loader
  | none, none => .error (.configuration (.relation name s.model.table))

/-! ### Scope -/

def withTrashed (s : Selection σ) : Selection σ := { s with trashed := .include }

def onlyTrashed (s : Selection σ) : Selection σ := { s with trashed := .only }

/-- A column of the model; its table is named when there are joins. -/
def qualify (s : Selection σ) (column : String) : String :=
  if s.query.joins.isEmpty then column else s.model.table ++ "." ++ column

/-- The query with the test for the mark of deletion. -/
def scopedTo (s : Selection σ) (trashed : Trashed) : Query :=
  if !s.model.softDeletes || trashed = .include then s.query
  else
    let q := s.query.isolate
    { q with
      wheres := q.wheres ++
        [.test .and (.isNull (s.qualify s.model.deletedAt) (trashed = .only))] }

/-- The query that runs. -/
def toQuery (s : Selection σ) : Query := s.scopedTo s.trashed

end Selection

end ActiveRow
