import ActiveRow.Query.Operator
import ActiveRow.Value

/-!
# Clauses

The parts of a query: raw fragments, tests and groups of tests, joins, orders and selected columns.
-/

namespace ActiveRow

/-- A fragment of SQL that is written as it stands. Each question mark outside single quotes is the
place of the next of its bindings. -/
structure Raw where
  sql : String
  bindings : List Value

/-- The right-hand side of a comparison or an assignment. -/
inductive Operand where
  | value (v : Value)
  | raw (r : Raw)

def Operand.isNull : Operand → Bool
  | value v => v.isNull
  | raw _ => false

/-- What joins a clause to the one before it. -/
inductive Connector where
  | and
  | or
  deriving DecidableEq

def Connector.sql : Connector → String
  | and => "AND"
  | or => "OR"

/-- A single test of a row. -/
inductive Test where
  | compare (column operator : String) (operand : Operand)
  | among (column : String) (values : List Value) (negated : Bool)
  | isNull (column : String) (negated : Bool)
  | between (column : String) (low high : Value) (negated : Bool)
  | columns (first operator second : String)
  | raw (r : Raw)

/-- The operator that a test was given by its caller. -/
def Test.operator? : Test → Option String
  | compare _ operator _ => some operator
  | columns _ operator _ => some operator
  | _ => none

/-- A test or a parenthesised group, with its connector to the clause before it. -/
inductive Clause where
  | test (link : Connector) (t : Test)
  | group (link : Connector) (clauses : List Clause)

def Clause.link : Clause → Connector
  | test link _ => link
  | group link _ => link

inductive JoinKind where
  | inner
  | left
  | right
  | cross
  deriving DecidableEq

def JoinKind.sql : JoinKind → String
  | inner => "INNER JOIN"
  | left => "LEFT JOIN"
  | right => "RIGHT JOIN"
  | cross => "CROSS JOIN"

/-- A condition of a join. -/
inductive JoinCondition where
  | columns (first operator second : String) (link : Connector)
  | value (column operator : String) (v : Value) (link : Connector)

def JoinCondition.link : JoinCondition → Connector
  | columns _ _ _ link => link
  | value _ _ _ link => link

structure Join where
  kind : JoinKind
  table : String
  conditions : List JoinCondition

inductive Direction where
  | asc
  | desc
  deriving DecidableEq

def Direction.sql : Direction → String
  | asc => "ASC"
  | desc => "DESC"

/-- Reads a direction in either case of letters. -/
def Direction.ofText? (s : String) : Option Direction :=
  let w := Text.lower s
  if w = "asc" then some .asc else if w = "desc" then some .desc else none

inductive Order where
  | column (name : String) (direction : Direction)
  | raw (r : Raw)

/-- A selected column. -/
inductive Column where
  | name (name : String)
  | raw (r : Raw)

end ActiveRow
