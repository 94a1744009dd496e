import ActiveRow.Query.Fetch
import ActiveRow.Statement.Change

/-!
# Writing

Operations that insert, update and delete rows. They give the number of rows concerned.
-/

namespace ActiveRow.Query

variable {σ : Type}

/-! ### Insertion -/

def insert (q : Query) (c : Connection σ) (row : List Assignment) : Action σ UInt64 := do
  c.insert (← .ofExcept (q.insertStatement c.dialect (row.map Prod.fst) [row.map Prod.snd]))

/-- The names in the order in which they first occur. -/
def distinctNames (names : List String) : List String :=
  names.foldl (fun seen n => if seen.contains n then seen else seen ++ [n]) []

/-- The columns of any of the rows. -/
def columnsOf (rows : List Attributes) : List String := distinctNames (rows.flatMap Keyed.keys)

/-- A row laid out along columns; null where it has no value. -/
def laidOut (columns : List String) (row : Attributes) : List Operand :=
  columns.map fun n => .value ((row.get? n).getD .null)

/-- Inserts rows with one statement, if there are any. -/
def insertMany (q : Query) (c : Connection σ) (rows : List Attributes) : Action σ UInt64 :=
  if rows.isEmpty then pure 0
  else do
    let columns := columnsOf rows
    c.insert (← .ofExcept (q.insertStatement c.dialect columns (rows.map (laidOut columns))))

/-- Inserts a row and gives its value of `key`. -/
def insertedKey (q : Query) (c : Connection σ) (row : List Assignment) (key : String) :
    Action σ (Option Value) := do
  let s ← .ofExcept (q.insertStatement c.dialect (row.map Prod.fst) [row.map Prod.snd])
  c.insertedKey s key

/-! ### Change -/

def update (q : Query) (c : Connection σ) (assignments : List Assignment) : Action σ UInt64 := do
  c.update (← .ofExcept (q.updateStatement c.dialect assignments))

/-- Adds to a column. -/
def increment (q : Query) (c : Connection σ) (column : String) (amount : Value) :
    Action σ UInt64 :=
  q.update c [(column, .raw ⟨column ++ " + ?", [amount]⟩)]

/-- Subtracts from a column. -/
def decrement (q : Query) (c : Connection σ) (column : String) (amount : Value) :
    Action σ UInt64 :=
  q.update c [(column, .raw ⟨column ++ " - ?", [amount]⟩)]

/-! ### Removal -/

def delete (q : Query) (c : Connection σ) : Action σ UInt64 := do
  c.delete (← .ofExcept (q.deleteStatement c.dialect))

/-- Removes every row of the table. -/
def truncate (q : Query) (c : Connection σ) : Action σ Unit := do
  discard <| c.execute (← .ofExcept (q.truncateStatement c.dialect))

end ActiveRow.Query
