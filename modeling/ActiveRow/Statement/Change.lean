import ActiveRow.Statement.Select

/-!
# Changing statements

INSERT, UPDATE, DELETE and TRUNCATE statements. Rows of an INSERT must have one operand for each
column; UPDATE and DELETE refuse joins.
-/

namespace ActiveRow

/-- A column and what it is set to. -/
abbrev Assignment := String × Operand

namespace Query

def rowPieces (row : List Operand) : List Piece :=
  .text "(" :: Piece.separated ", " (row.map Operand.pieces) ++ [.text ")"]

/-- The first row, counted from `i`, that has not one operand for each column. -/
def unevenRow? (columns : Nat) : Nat → List (List Operand) → Option Invalid
  | _, [] => none
  | i, row :: rest =>
    if row.length = columns then unevenRow? columns (i + 1) rest
    else some (.rowLength i row.length columns)

def insertPieces (table : String) (columns : List String) (rows : List (List Operand)) :
    List Piece :=
  [.text "INSERT INTO ", .text table] ++
    if columns.isEmpty then [.text " DEFAULT VALUES"]
    else
      [.text " (", .text (String.intercalate ", " columns), .text ") VALUES "] ++
        Piece.separated ", " (rows.map rowPieces)

/-- The statement that adds rows. Without columns it adds one row of defaults. -/
def insertStatement (d : Dialect) (q : Query) (columns : List String)
    (rows : List (List Operand)) : Except Fault Statement := do
  q.validate
  let table ← q.requireTable
  if !columns.isEmpty then
    if let some cause := unevenRow? columns.length 0 rows then
      throw (.validation cause)
  Piece.finish d.placeholder (insertPieces table columns rows)

def assignmentPieces (a : Assignment) : List Piece :=
  [.text a.1, .text " = "] ++ a.2.pieces

def updatePieces (table : String) (q : Query) (assignments : List Assignment) : List Piece :=
  [.text "UPDATE ", .text table, .text " SET "] ++
    Piece.separated ", " (assignments.map assignmentPieces) ++
    Clause.listPieces " WHERE " q.wheres

/-- The statement that sets columns of the rows that pass the tests. -/
def updateStatement (d : Dialect) (q : Query) (assignments : List Assignment) :
    Except Fault Statement := do
  q.validate
  let table ← q.requireTable
  if assignments.isEmpty then throw (.validation .emptyUpdate)
  if !q.joins.isEmpty then throw (.validation .joinedUpdate)
  Piece.finish d.placeholder (q.updatePieces table assignments)

def deletePieces (table : String) (q : Query) : List Piece :=
  [.text "DELETE FROM ", .text table] ++ Clause.listPieces " WHERE " q.wheres

/-- The statement that removes the rows that pass the tests. -/
def deleteStatement (d : Dialect) (q : Query) : Except Fault Statement := do
  q.validate
  let table ← q.requireTable
  if !q.joins.isEmpty then throw (.validation .joinedDelete)
  Piece.finish d.placeholder (q.deletePieces table)

/-- The statement that empties the table. -/
def truncateStatement (d : Dialect) (q : Query) : Except Fault Statement := do
  q.validate
  let table ← q.requireTable
  pure ⟨(match d with
    | .postgres | .mysql => "TRUNCATE TABLE "
    | .sqlite | .generic => "DELETE FROM ") ++ table, []⟩

end Query

end ActiveRow
