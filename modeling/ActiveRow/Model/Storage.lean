import ActiveRow.Model
import ActiveRow.Query.Write

/-!
# Storing records

Saving, deleting, restoring and reloading a record of a model. Each operation gives the record
after it, also when it fails. `now` is the moment that times are taken from.
-/

namespace ActiveRow

/-- How an operation on a record ended: with a result or a fault, and with which record. -/
structure Outcome (α : Type) where
  record : Record
  result : Except Fault α

namespace Outcome

variable {σ α β : Type}

/-- Runs an action for a record; a fault leaves the record as it is. -/
def ofAction (r : Record) (a : Action σ β) (done : β → Outcome α) : StateM σ (Outcome α) := do
  match ← a.run with
  | .ok b => pure (done b)
  | .error cause => pure ⟨r, .error cause⟩

end Outcome

namespace Model

variable {σ : Type}

/-- The query for the row of a key. -/
def rowQuery (m : Model) (key : Value) : Query := (Query.on m.table).whereEq m.primaryKey key

/-- The key of a record, which must not be null. -/
def requireKey (m : Model) (r : Record) : Except Fault Value :=
  match r.knownKey? with
  | some key => .ok key
  | none => .error (.validation (.keyless m.table m.primaryKey))

/-- The values as assignments. -/
def assignments (values : List (String × Value)) : List Assignment :=
  values.map fun e => (e.1, .value e.2)

/-- Sets an attribute that is missing or null. -/
def setDefault (key : String) (v : Value) (r : Record) : Record :=
  if (r.get? key).all Value.isNull then r.set key v else r

/-- A new record with its times of creation and change. -/
def stamped (m : Model) (now : Timestamp) (r : Record) : Record :=
  if m.timestamps then
    setDefault m.updatedAt (.timestamp now) (setDefault m.createdAt (.timestamp now) r)
  else r

/-- A changed record with its time of change, unless that was set by hand. -/
def touched (m : Model) (now : Timestamp) (r : Record) : Record :=
  if m.timestamps && !r.isDirtyKey m.updatedAt then r.set m.updatedAt (.timestamp now) else r

/-! ### Saving -/

/-- Inserts the row of a new record. A key that the record lacks is taken from the database. -/
def insertRow (m : Model) (c : Connection σ) (r : Record) : Action σ Record := do
  let q := Query.on m.table
  let r ← if r.knownKey?.isSome then do
      discard <| q.insert c (assignments r.attributes.entries)
      pure r
    else do
      let values := r.attributes.entries.filter fun e => e.1 ≠ m.primaryKey
      match ← q.insertedKey c (assignments values) m.primaryKey with
      | some key => pure (r.set m.primaryKey key)
      | none => pure r
  c.report (.inserted m.table)
  pure r

def insert (m : Model) (c : Connection σ) (now : Timestamp) (r : Record) :
    StateM σ (Outcome Unit) :=
  let r := m.stamped now r
  -- on a fault the record keeps its times
  Outcome.ofAction r (m.insertRow c r) fun r => ⟨(r.setStored true).markClean, .ok ()⟩

/-- Updates the columns of the row whose attributes are dirty. -/
def updateRow (m : Model) (c : Connection σ) (r : Record) : Action σ Unit := do
  let key ← .ofExcept (m.requireKey r)
  discard <| (m.rowQuery key).update c (assignments r.dirty.entries)

/-- Stores the changes of a record, if there are any. -/
def update (m : Model) (c : Connection σ) (now : Timestamp) (r : Record) :
    StateM σ (Outcome Unit) :=
  if r.isDirty then
    let r := m.touched now r
    -- on a fault the record keeps its new time and stays dirty
    Outcome.ofAction r (m.updateRow c r) fun _ => ⟨r.markClean, .ok ()⟩
  else pure ⟨r, .ok ()⟩

/-- Inserts a new record, or stores the changes of one that has a row. -/
def save (m : Model) (c : Connection σ) (now : Timestamp) (r : Record) : StateM σ (Outcome Unit) :=
  if r.stored then m.update c now r else m.insert c now r

/-! ### Deleting -/

/-- Removes the row. Tells whether there was one. -/
def forceDelete (m : Model) (c : Connection σ) (r : Record) : StateM σ (Outcome Bool) :=
  if r.stored then
    Outcome.ofAction r
      (do
        let key ← .ofExcept (m.requireKey r)
        (m.rowQuery key).delete c)
      fun n => ⟨r.setStored false, .ok (n > 0)⟩
  else pure ⟨r, .ok false⟩

/-- What marks a row as deleted. -/
def deletionMarks (m : Model) (now : Timestamp) : List (String × Value) :=
  (m.deletedAt, .timestamp now) :: if m.timestamps then [(m.updatedAt, .timestamp now)] else []

/-- Deletes the row, by marking it where the model says so. Tells whether there was one. -/
def delete (m : Model) (c : Connection σ) (now : Timestamp) (r : Record) :
    StateM σ (Outcome Bool) :=
  if !r.stored then pure ⟨r, .ok false⟩
  else if !m.softDeletes then m.forceDelete c r
  else
    let marks := m.deletionMarks now
    Outcome.ofAction r
      (do
        let key ← .ofExcept (m.requireKey r)
        (m.rowQuery key).update c (assignments marks))
      fun n => ⟨(r.fill marks).markClean, .ok (n > 0)⟩

/-- Takes the mark of deletion off and saves. Tells whether the model marks deleted rows and the
record has one. -/
def restore (m : Model) (c : Connection σ) (now : Timestamp) (r : Record) :
    StateM σ (Outcome Bool) :=
  if m.softDeletes && r.stored then do
    let saved ← m.save c now (r.set m.deletedAt .null)
    pure ⟨saved.record, saved.result.map fun _ => true⟩
  else pure ⟨r, .ok false⟩

/-! ### Reloading -/

/-- The stored row of a record. -/
def fetchRow (m : Model) (c : Connection σ) (r : Record) : Action σ Row := do
  let key ← .ofExcept (m.requireKey r)
  match ← (m.rowQuery key).first? c with
  | some row => pure row
  | none => throw (.notFound (.stored m.table m.primaryKey key.plain))

/-- Takes the attributes from the database again. -/
def refresh (m : Model) (c : Connection σ) (r : Record) : StateM σ (Outcome Unit) :=
  Outcome.ofAction r (m.fetchRow c r) fun row => ⟨r.replaceAttributes row, .ok ()⟩

end Model

end ActiveRow
