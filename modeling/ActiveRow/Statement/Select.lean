import ActiveRow.Query
import ActiveRow.Statement.Predicate

/-!
# Reading statements

SELECT statements in a fixed order of clauses, aggregates over them, and the test for any row.
-/

namespace ActiveRow

namespace Join

def conditionPieces : JoinCondition → List Piece
  | .columns first operator second _ =>
    [.text first, .text " ", .text (Operator.written operator), .text " ", .text second]
  | .value column operator v _ =>
    [.text column, .text " ", .text (Operator.written operator), .text " ", .slot v]

/-- The conditions after the first, each behind its connector. -/
def furtherPieces (c : JoinCondition) : List Piece :=
  [.text " ", .text c.link.sql, .text " "] ++ conditionPieces c

def pieces (j : Join) : List Piece :=
  [.text " ", .text j.kind.sql, .text " ", .text j.table] ++
    match j.kind, j.conditions with
    | .cross, _ => []
    | _, [] => []
    | _, c :: rest => .text " ON " :: conditionPieces c ++ rest.flatMap furtherPieces

end Join

def Column.pieces : Column → List Piece
  | name n => [.text n]
  | raw r => r.pieces

def Order.pieces : Order → List Piece
  | column n direction => [.text n, .text " ", .text direction.sql]
  | raw r => r.pieces

/-- The functions that fold rows into one value. -/
inductive Aggregate where
  | count
  | sum
  | avg
  | min
  | max
  deriving DecidableEq

namespace Aggregate

def sql : Aggregate → String
  | count => "COUNT"
  | sum => "SUM"
  | avg => "AVG"
  | min => "MIN"
  | max => "MAX"

/-- The name of the column that holds the value. -/
def label : String := "aggregate"

def expression (a : Aggregate) (column : String) : String :=
  a.sql ++ "(" ++ column ++ ") AS " ++ label

end Aggregate

namespace Query

/-- Refuses a query that was given an operator which is not accepted. -/
def validate (q : Query) : Except Fault Unit :=
  match q.firstInvalid with
  | some operator => .error (.validation (.operator operator))
  | none => .ok ()

def requireTable (q : Query) : Except Fault String :=
  match q.table with
  | some table => .ok table
  | none => .error (.configuration .noTable)

def columnPieces (q : Query) : List Piece :=
  if q.columns.isEmpty then [.text "*"] else Piece.separated ", " (q.columns.map Column.pieces)

def groupPieces (q : Query) : List Piece :=
  if q.groups.isEmpty then [] else [.text " GROUP BY ", .text (String.intercalate ", " q.groups)]

def orderPieces (q : Query) : List Piece :=
  if q.orders.isEmpty then []
  else .text " ORDER BY " :: Piece.separated ", " (q.orders.map Order.pieces)

/-- The extent of the rows. An offset alone needs a limit in one dialect. -/
def extentPieces (d : Dialect) (q : Query) : List Piece :=
  (match q.limit, q.offset with
    | some n, _ => [.text (" LIMIT " ++ Nat.repr n.toNat)]
    | none, some _ => if d = .mysql then [.text " LIMIT 18446744073709551615"] else []
    | none, none => []) ++
  match q.offset with
  | some n => [.text (" OFFSET " ++ Nat.repr n.toNat)]
  | none => []

/-- The pieces of a SELECT on a table. -/
def selectPieces (d : Dialect) (table : String) (q : Query) : List Piece :=
  .text "SELECT " :: (if q.distinct then [.text "DISTINCT "] else []) ++ q.columnPieces ++
    [.text " FROM ", .text table] ++ q.joins.flatMap Join.pieces ++
    Clause.listPieces " WHERE " q.wheres ++ q.groupPieces ++
    Clause.listPieces " HAVING " q.havings ++ q.orderPieces ++ q.extentPieces d

/-- The statement that gives the rows of a query. -/
def selectStatement (d : Dialect) (q : Query) : Except Fault Statement := do
  q.validate
  let table ← q.requireTable
  Piece.finish d.placeholder (q.selectPieces d table)

/-- The query without order and extent. -/
def unbounded (q : Query) : Query := { q with orders := [], limit := none, offset := none }

/-- Whether a count has to count the rows of the query as a whole. -/
def countsRows (q : Query) (a : Aggregate) : Bool :=
  a = .count && (!q.groups.isEmpty || !q.havings.isEmpty || q.distinct)

/-- The query whose rows a count of the whole counts. -/
def counted (q : Query) : Query :=
  let inner := q.unbounded
  if !q.distinct || inner.columns.isEmpty then { inner with columns := [.raw ⟨"1", []⟩] } else inner

/-- The query whose only column is the aggregate. -/
def aggregated (q : Query) (a : Aggregate) (column : String) : Query :=
  { q.unbounded with distinct := false, columns := [.raw ⟨a.expression column, []⟩] }

def aggregatePieces (d : Dialect) (table : String) (q : Query) (a : Aggregate) (column : String) :
    List Piece :=
  if q.countsRows a then
    -- grouped or distinct rows are counted in a statement around them
    .text ("SELECT " ++ a.expression column ++ " FROM (") :: q.counted.selectPieces d table ++
      [.text ") AS aggregate_table"]
  else (q.aggregated a column).selectPieces d table

/-- The statement that folds the rows of a query into one value. -/
def aggregateStatement (d : Dialect) (q : Query) (a : Aggregate) (column : String) :
    Except Fault Statement := do
  q.validate
  let table ← q.requireTable
  Piece.finish d.placeholder (q.aggregatePieces d table a column)

/-- The query that gives a row exactly when there is any. -/
def probe (q : Query) : Query :=
  { q with
    columns := [.raw ⟨"1", []⟩], distinct := false, orders := [], limit := some 1, offset := none }

/-- The statement that asks for any row. -/
def existsStatement (d : Dialect) (q : Query) : Except Fault Statement := q.probe.selectStatement d

end Query

end ActiveRow
