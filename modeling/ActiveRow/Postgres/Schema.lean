import ActiveRow.Postgres.Client

/-!
# Schemas

The tables of a database and the columns of a table, asked for in the catalogue of PostgreSQL.
-/

namespace ActiveRow.Postgres

structure ColumnInfo where
  name : String
  dataType : String
  nullable : Bool
  default : Option String
  primaryKey : Bool

structure TableInfo where
  name : String
  columns : List ColumnInfo

def tablesSql : String :=
  "SELECT table_name::text AS table_name FROM information_schema.tables " ++
  "WHERE table_schema = current_schema() AND table_type = 'BASE TABLE' " ++
  "ORDER BY table_name"

def columnsSql : String :=
  "SELECT c.column_name::text AS name, c.data_type::text AS data_type, " ++
  "c.is_nullable = 'YES' AS nullable, c.column_default::text AS column_default, " ++
  "EXISTS (SELECT 1 FROM information_schema.table_constraints tc " ++
  "JOIN information_schema.key_column_usage k " ++
  "ON k.constraint_name = tc.constraint_name AND k.table_schema = tc.table_schema " ++
  "WHERE tc.constraint_type = 'PRIMARY KEY' AND tc.table_schema = c.table_schema " ++
  "AND tc.table_name = c.table_name AND k.column_name = c.column_name) AS primary_key " ++
  "FROM information_schema.columns c " ++
  "WHERE c.table_schema = current_schema() AND c.table_name = $1 " ++
  "ORDER BY c.ordinal_position"

/-- The plain text of a cell, nothing for a missing one. -/
def cellText (row : Row) (column : String) : String := ((row.get? column).map Value.plain).getD ""

/-- A column as its row in the catalogue tells. What is not told is taken to be nullable and no part
of the key. -/
def ColumnInfo.ofRow (row : Row) : ColumnInfo :=
  { name := cellText row "name"
    dataType := cellText row "data_type"
    nullable := ((row.get? "nullable").bind Value.asBool).getD true
    default := ((row.get? "column_default").filter fun v => !v.isNull).map Value.plain
    primaryKey := ((row.get? "primary_key").bind Value.asBool).getD false }

namespace Client

/-- The names of the tables. -/
def tables (i : Nat) : Action Client (List String) := do
  pure ((← query i tablesSql []).rows.filterMap fun row => (row.get? "table_name").map Value.plain)

def table (i : Nat) (name : String) : Action Client TableInfo := do
  let rows := (← query i columnsSql [.text name]).rows
  if rows.isEmpty then throw (.notFound (.table name))
  else pure ⟨name, rows.map .ofRow⟩

end Client

end ActiveRow.Postgres
