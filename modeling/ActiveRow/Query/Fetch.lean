import ActiveRow.Connection
import ActiveRow.Statement.Select

/-!
# Fetching

Operations that run a query and give rows, single columns or aggregates. An operation whose
statement does not compile sends nothing.
-/

namespace ActiveRow.Query

variable {σ : Type}

/-- The column that identifies a row unless a query says otherwise. -/
def defaultKey : String := "id"

/-- What follows the last point of a column name. -/
def bareName (column : String) : String :=
  String.ofList (column.toList.reverse.takeWhile (· ≠ '.')).reverse

/-- The cell of a column, or else the first cell of the row. -/
def cell? (row : Row) (column : String) : Option Value :=
  (row.get? (bareName column)).or (row.entries.head?.map Prod.snd)

/-- The rows of the query. -/
def get (q : Query) (c : Connection σ) : Action σ (List Row) := do
  c.select (← .ofExcept (q.selectStatement c.dialect))

def first? (q : Query) (c : Connection σ) : Action σ (Option Row) := do
  pure (← (q.take 1).get c).head?

/-- The first row of this key. -/
def find? (q : Query) (c : Connection σ) (key : Value) : Action σ (Option Row) :=
  (q.whereEq defaultKey key).first? c

/-- The cell of a column in the first row. -/
def value? (q : Query) (c : Connection σ) (column : String) : Action σ (Option Value) := do
  pure ((← (q.select [column]).first? c).bind fun row => cell? row column)

/-- The cell of a column in every row; null where there is none. -/
def pluck (q : Query) (c : Connection σ) (column : String) : Action σ (List Value) := do
  pure ((← (q.select [column]).get c).map fun row => (cell? row column).getD .null)

/-- Whether the query has a row. -/
def exists? (q : Query) (c : Connection σ) : Action σ Bool := do
  pure !(← c.select (← .ofExcept (q.existsStatement c.dialect))).isEmpty

def lacks (q : Query) (c : Connection σ) : Action σ Bool := do pure !(← q.exists? c)

/-! ### Aggregates -/

/-- The value of an aggregate, unless it is null. -/
def aggregate? (q : Query) (c : Connection σ) (a : Aggregate) (column : String) :
    Action σ (Option Value) := do
  let rows ← c.select (← .ofExcept (q.aggregateStatement c.dialect a column))
  pure ((rows.head?.bind fun row => cell? row Aggregate.label).filter fun v => !v.isNull)

/-- A count out of the value of an aggregate: its whole part, zero for what is no number. -/
def countOf (v : Option Value) : UInt64 :=
  match v.bind Value.toNumber with
  | some x => x.toCount
  | none => 0

def count (q : Query) (c : Connection σ) : Action σ UInt64 := do
  pure (countOf (← q.aggregate? c .count "*"))

def sum (q : Query) (c : Connection σ) (column : String) : Action σ Double := do
  pure (((← q.aggregate? c .sum column).bind Value.toNumber).getD Double.zero)

def avg? (q : Query) (c : Connection σ) (column : String) : Action σ (Option Double) := do
  pure ((← q.aggregate? c .avg column).bind Value.toNumber)

def min? (q : Query) (c : Connection σ) (column : String) : Action σ (Option Value) :=
  q.aggregate? c .min column

def max? (q : Query) (c : Connection σ) (column : String) : Action σ (Option Value) :=
  q.aggregate? c .max column

end ActiveRow.Query
