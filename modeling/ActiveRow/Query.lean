import ActiveRow.Query.Clause
import ActiveRow.Word

/-!
# Queries

What a query has gathered before it is compiled. Each clause owns its values. A query remembers the
first operator that is not accepted; nothing is compiled from it afterwards.

* `firstInvalid_check`: a remembered operator stays, whatever is checked later.
-/

namespace ActiveRow

structure Query where
  table : Option String := none
  columns : List Column := []
  distinct : Bool := false
  joins : List Join := []
  wheres : List Clause := []
  groups : List String := []
  havings : List Clause := []
  orders : List Order := []
  limit : Option UInt64 := none
  offset : Option UInt64 := none
  firstInvalid : Option String := none

namespace Query

instance : Inhabited Query := ⟨{}⟩

/-- A query on a table. -/
def on (table : String) : Query := { table := some table }

/-- Remembers an operator that is not accepted, unless one is remembered already. -/
def check (q : Query) (operator : String) : Query :=
  if Operator.isValid operator then q
  else { q with firstInvalid := q.firstInvalid.or (some operator) }

def checkTest (q : Query) (t : Test) : Query :=
  match t.operator? with
  | some operator => q.check operator
  | none => q

theorem firstInvalid_check {q : Query} {op : String} (h : q.firstInvalid = some op)
    (operator : String) : (q.check operator).firstInvalid = some op := by
  unfold check
  split <;> simp [h]

/-! ### Tables and columns -/

def from_ (q : Query) (table : String) : Query := { q with table := some table }

/-- Replaces the selected columns. -/
def select (q : Query) (columns : List String) : Query :=
  { q with columns := columns.map Column.name }

def addSelect (q : Query) (column : String) : Query :=
  { q with columns := q.columns ++ [.name column] }

def selectRaw (q : Query) (r : Raw) : Query := { q with columns := q.columns ++ [.raw r] }

def setDistinct (q : Query) : Query := { q with distinct := true }

/-! ### Tests -/

/-- Adds a test of the rows. -/
def filter (q : Query) (link : Connector) (t : Test) : Query :=
  let q := q.checkTest t
  { q with wheres := q.wheres ++ [.test link t] }

theorem filter_eq (q : Query) (link : Connector) (t : Test) : ∃ firstInvalid, q.filter link t =
    { q with wheres := q.wheres ++ [.test link t], firstInvalid := firstInvalid } := by
  unfold filter checkTest
  cases t.operator? with
  | none => exact ⟨_, rfl⟩
  | some operator =>
    simp only [check]
    split <;> exact ⟨_, rfl⟩

theorem wheres_filter (q : Query) (link : Connector) (t : Test) :
    (q.filter link t).wheres = q.wheres ++ [.test link t] := by
  obtain ⟨_, h⟩ := q.filter_eq link t
  rw [h]

theorem joins_filter (q : Query) (link : Connector) (t : Test) :
    (q.filter link t).joins = q.joins := by
  obtain ⟨_, h⟩ := q.filter_eq link t
  rw [h]

theorem table_filter (q : Query) (link : Connector) (t : Test) :
    (q.filter link t).table = q.table := by
  obtain ⟨_, h⟩ := q.filter_eq link t
  rw [h]

/-- Adds `column = value`. -/
def whereEq (q : Query) (column : String) (v : Value) : Query :=
  q.filter .and (.compare column "=" (.value v))

/-- Adds the tests of another query as one group. -/
def nest (q : Query) (link : Connector) (inner : Query) : Query :=
  { q with
    firstInvalid := q.firstInvalid.or inner.firstInvalid
    wheres := q.wheres ++ [.group link inner.wheres] }

/-- Adds a test of the groups. -/
def having (q : Query) (link : Connector) (t : Test) : Query :=
  let q := q.checkTest t
  { q with havings := q.havings ++ [.test link t] }

/-! ### Joins -/

/-- Adds a join as it is given. -/
def addJoin (q : Query) (j : Join) : Query := { q with joins := q.joins ++ [j] }

/-- Joins a table where two columns compare. -/
def join (q : Query) (kind : JoinKind) (table first operator second : String) : Query :=
  (q.check operator).addJoin ⟨kind, table, [.columns first operator second .and]⟩

/-- Joins a table where a column compares with a value. -/
def joinWhere (q : Query) (table column operator : String) (v : Value) : Query :=
  (q.check operator).addJoin ⟨.inner, table, [.value column operator v .and]⟩

def crossJoin (q : Query) (table : String) : Query := q.addJoin ⟨.cross, table, []⟩

/-! ### Order and extent -/

def orderBy (q : Query) (column : String) (direction : Direction) : Query :=
  { q with orders := q.orders ++ [.column column direction] }

def orderByRaw (q : Query) (r : Raw) : Query := { q with orders := q.orders ++ [.raw r] }

/-- Drops every order. -/
def reorder (q : Query) : Query := { q with orders := [] }

def groupBy (q : Query) (columns : List String) : Query := { q with groups := q.groups ++ columns }

def take (q : Query) (n : UInt64) : Query := { q with limit := some n }

def skip (q : Query) (n : UInt64) : Query := { q with offset := some n }

/-- The number of rows before a page; pages count from one. -/
def pageOffset (page perPage : UInt64) : UInt64 :=
  Word.saturate ((page.toNat - 1) * perPage.toNat)

/-- Keeps the rows of one page. -/
def forPage (q : Query) (page perPage : UInt64) : Query :=
  (q.skip (pageOffset page perPage)).take perPage

end Query

end ActiveRow
