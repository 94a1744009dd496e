import ActiveRow.Action
import ActiveRow.Statement

/-!
# Adapters

An adapter runs statements against a database. It answers a statement with rows and a count: of
the rows, for a statement that returns any, else of the rows that it changed.
-/

namespace ActiveRow

structure Output where
  rows : List Row
  count : UInt64

namespace Output

/-- The answer with these rows. -/
def ofRows (rows : List Row) : Output := ⟨rows, UInt64.ofNat rows.length⟩

/-- The answer to a statement that changed this many rows. -/
def affected (count : UInt64) : Output := ⟨[], count⟩

end Output

/-- An adapter whose work changes a state. -/
structure Adapter (σ : Type) where
  dialect : Dialect
  /-- The name of the driver, for messages. -/
  driver : String
  connect : Action σ Unit
  disconnect : Action σ Unit
  begin_ : Action σ Unit
  commit : Action σ Unit
  rollback : Action σ Unit
  query : String → List Value → Action σ Output
  /-- Gives up what the adapter still holds, once nobody uses it any more. -/
  release : σ → σ := id

namespace Adapter

variable {σ : Type}

/-- The rows that a statement returns. -/
def rows (a : Adapter σ) (s : Statement) : Action σ (List Row) := do
  pure (← a.query s.sql s.bindings).rows

/-- The number of rows that a statement concerns. -/
def change (a : Adapter σ) (s : Statement) : Action σ UInt64 := do
  pure (← a.query s.sql s.bindings).count

/-- The insertion that also returns a column. -/
def returning (s : Statement) (key : String) : Statement :=
  { s with sql := s.sql ++ " RETURNING " ++ key }

/-- Inserts, and gives the value of `key` in the new row, in dialects that can return it. -/
def insertedKey (a : Adapter σ) (s : Statement) (key : String) : Action σ (Option Value) :=
  if a.dialect.supportsReturning then do
    pure ((← a.rows (returning s key)).head?.bind fun row => row.get? key)
  else throw (.configuration (.insertedKey a.driver))

end Adapter

end ActiveRow
