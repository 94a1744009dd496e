import ActiveRow.Proofs.Model.RowStatement

/-!
# A store of one row

A connection whose state is one row of a model. It answers the question for a row by its key, and a
statement that sets one of the columns it knows in the row of a key; no row but its own has a key
that it finds. It refuses all other statements.
-/

namespace ActiveRow

/-- A store that holds one row of a model and knows some columns of it. -/
structure RowStore where
  model : Model
  columns : List String

namespace RowStore

/-- The statement that asks for the row by its key. -/
def question (s : RowStore) : String :=
  "SELECT * FROM " ++ s.model.table ++ " WHERE " ++ s.model.primaryKey ++ " = $1 LIMIT 1"

/-- The statement that sets a column of the row. -/
def setting (s : RowStore) (column : String) : String :=
  "UPDATE " ++ s.model.table ++ " SET " ++ column ++ " = $1 WHERE " ++ s.model.primaryKey ++ " = $2"

/-- Whether the row has this key. -/
def finds (s : RowStore) (key : Value) (row : Row) : Bool :=
  (row.get? s.model.primaryKey).any key.same

/-- Answers a statement. -/
def answer (s : RowStore) (sql : String) (bindings : List Value) (row : Row) :
    Except Fault Output × Row :=
  match bindings with
  | [key] =>
    if sql = s.question then (.ok (.ofRows (if s.finds key row then [row] else [])), row)
    else refuse row
  | [v, key] =>
    match s.columns.find? fun column => sql = s.setting column with
    | some column =>
      if s.finds key row then (.ok (.affected 1), row.insert column v)
      else (.ok (.affected 0), row)
    | none => refuse row
  | _ => refuse row
where
  /-- The answer to a statement that the store does not know. -/
  refuse (row : Row) : Except Fault Output × Row := (.error (.adapter "unknown statement"), row)

/-- The connection to a store. -/
def connection (s : RowStore) : Connection Row :=
  .ofAdapter
    { dialect := .postgres, driver := "row"
      connect := pure (), disconnect := pure (), begin_ := pure (), commit := pure ()
      rollback := pure ()
      query := fun sql bindings => ExceptT.mk fun row => s.answer sql bindings row }

variable (s : RowStore)

theorem from_update (statement : Statement) (row : Row) :
    (s.connection.update statement).from_ row =
      ((s.answer statement.sql statement.bindings row).1.map Output.count,
        (s.answer statement.sql statement.bindings row).2) := by
  rw [Connection.update, connection, Connection.from_dispatch_ofAdapter, Adapter.from_change]
  rfl

theorem from_select (statement : Statement) (row : Row) :
    (s.connection.select statement).from_ row =
      ((s.answer statement.sql statement.bindings row).1.map Output.rows,
        (s.answer statement.sql statement.bindings row).2) := by
  rw [Connection.select, connection, Connection.from_dispatch_ofAdapter, Adapter.from_rows]
  rfl

theorem setting_inj {column column' : String} (h : s.setting column = s.setting column') :
    column = column' := by
  simp only [setting, String.append_assoc] at h
  rw [String.append_right_inj, String.append_right_inj, String.append_right_inj] at h
  exact (String.append_left_inj _).1 h

theorem sql_rowUpdate (e : String × Value) (key : Value) :
    (s.model.rowUpdate .postgres key [e]).sql = s.setting e.1 := by
  have h1 : Dialect.postgres.placeholder.mark (0 + 1) = "$1" := by decide
  have h2 : Dialect.postgres.placeholder.mark (1 + 1) = "$2" := by decide
  have hset : " = $1 WHERE " = " = " ++ ("$1" ++ " WHERE ") := by decide
  have hkey : " = $2" = " = " ++ "$2" := by decide
  simp only [Model.rowUpdate, setting, settings, Pairs.keys_cons, Pairs.keys_nil,
    String.intercalate_singleton, List.length_singleton, h1, h2, hset, hkey, String.append_assoc]

/-- **The store keeps the row of its model.** -/
theorem keeps {key : Value} {row : Row} (hkey : s.finds key row = true) :
    s.model.Keeps s.connection id key row where
  writes := by
    rintro values row' ⟨hk, statement, n, hs, hu⟩
    rw [s.model.updateStatement_rowQuery _ hk] at hs
    rw [from_update] at hu
    match values with
    | [] => cases hs
    | [e] =>
      obtain rfl := Except.ok.inj hs
      have hsql : (s.model.rowUpdate s.connection.dialect key [e]).sql = s.setting e.1 :=
        s.sql_rowUpdate e key
      have hbindings :
          (s.model.rowUpdate s.connection.dialect key [e]).bindings = [e.2, key] := rfl
      rw [hsql, hbindings] at hu
      simp only [answer] at hu
      split at hu
      · rename_i column hfind
        have hcolumn := List.find?_some hfind
        obtain rfl : e.1 = column := s.setting_inj (by simpa using hcolumn)
        rw [if_pos hkey] at hu
        cases hu
        rfl
      · cases hu
    | e :: e' :: rest =>
      -- a statement that sets two columns has more values than the store answers to
      obtain rfl := Except.ok.inj hs
      cases rest <;> cases hu
  reads := by
    rintro found row' ⟨hk, statement, rows, hs, hsel, hhead⟩
    rw [from_select] at hsel
    unfold answer at hsel
    split at hsel
    · rename_i asked _
      split at hsel
      · cases hsel
        -- a question with another key finds no row, and has no first one
        have hhead : (if s.finds asked row then [row] else []).head? = some found := hhead
        split at hhead <;> cases hhead
        exact ⟨rfl, rfl⟩
      · cases hsel
    · split at hsel
      · split at hsel <;> cases hsel <;> cases hhead
      · cases hsel
    · cases hsel

end RowStore

end ActiveRow
