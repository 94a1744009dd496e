import ActiveRow.Model.Storage
import ActiveRow.Selection

/-!
# Writing records

Operations that create, update, delete and restore records of a selection. Updating keeps the time
of change; deleting marks the rows where the model says so. `now` is the moment that times are
taken from.
-/

namespace ActiveRow.Selection

variable {σ : Type}

/-- Inserts a new record with these attributes. -/
def create (s : Selection σ) (c : Connection σ) (now : Timestamp) (attributes : Attributes) :
    Action σ Record := do
  let saved ← liftM (s.model.save c now (s.model.make attributes))
  match saved.result with
  | .ok () => pure saved.record
  | .error cause => throw cause

/-- The assignments with the time of change, unless that is among them. -/
def timed (m : Model) (now : Timestamp) (assignments : List Assignment) : List Assignment :=
  if m.timestamps && !(assignments.map Prod.fst).contains m.updatedAt then
    assignments ++ [(m.updatedAt, .value (.timestamp now))]
  else assignments

def update (s : Selection σ) (c : Connection σ) (now : Timestamp)
    (assignments : List Assignment) : Action σ UInt64 :=
  s.toQuery.update c (timed s.model now assignments)

def increment (s : Selection σ) (c : Connection σ) (column : String) (amount : Value) :
    Action σ UInt64 :=
  s.toQuery.increment c column amount

def decrement (s : Selection σ) (c : Connection σ) (column : String) (amount : Value) :
    Action σ UInt64 :=
  s.toQuery.decrement c column amount

/-- Removes the rows, whatever the model says. -/
def forceDelete (s : Selection σ) (c : Connection σ) : Action σ UInt64 := s.toQuery.delete c

/-- Deletes the rows, by marking them where the model says so. -/
def delete (s : Selection σ) (c : Connection σ) (now : Timestamp) : Action σ UInt64 :=
  if s.model.softDeletes then s.update c now [(s.model.deletedAt, .value (.timestamp now))]
  else s.forceDelete c

/-- Takes the mark off the rows that are marked as deleted. -/
def restore (s : Selection σ) (c : Connection σ) (now : Timestamp) : Action σ UInt64 :=
  if s.model.softDeletes then
    (s.scopedTo .only).update c
      ((s.model.deletedAt, .value .null) ::
        if s.model.timestamps then [(s.model.updatedAt, .value (.timestamp now))] else [])
  else pure 0

end ActiveRow.Selection
