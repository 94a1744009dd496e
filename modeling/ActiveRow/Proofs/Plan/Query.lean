import ActiveRow.Proofs.Plan

/-!
# Plans of queries

Each operation on a query asks one statement and reads its answer; only the insertion of no rows at
all asks none.

* `Query.Terminal.plan`: the statement of each operation, and what is read.
* `Query.Terminal.follows`: the operations do as their plans say.
-/

namespace ActiveRow

open Plan (one)
open Script (Follows)

/-- The operations that run a query, each with the type of what it gives. -/
inductive Query.Terminal : Type → Type
  | get : Terminal (List Row)
  | first? : Terminal (Option Row)
  | find? (key : Value) : Terminal (Option Row)
  | value? (column : String) : Terminal (Option Value)
  | pluck (column : String) : Terminal (List Value)
  | exists? : Terminal Bool
  | lacks : Terminal Bool
  | aggregate? (a : Aggregate) (column : String) : Terminal (Option Value)
  | count : Terminal UInt64
  | sum (column : String) : Terminal Double
  | avg? (column : String) : Terminal (Option Double)
  | min? (column : String) : Terminal (Option Value)
  | max? (column : String) : Terminal (Option Value)
  | insert (row : List Assignment) : Terminal UInt64
  | insertMany (rows : List Attributes) : Terminal UInt64
  | insertedKey (row : List Assignment) (key : String) : Terminal (Option Value)
  | update (assignments : List Assignment) : Terminal UInt64
  | increment (column : String) (amount : Value) : Terminal UInt64
  | decrement (column : String) (amount : Value) : Terminal UInt64
  | delete : Terminal UInt64
  | truncate : Terminal Unit

namespace Query

section

variable {σ υ α : Type}

def Terminal.run (q : Query) (c : Connection σ) : Terminal α → Action σ α
  | get => q.get c
  | first? => q.first? c
  | find? key => q.find? c key
  | value? column => q.value? c column
  | pluck column => q.pluck c column
  | exists? => q.exists? c
  | lacks => q.lacks c
  | aggregate? a column => q.aggregate? c a column
  | count => q.count c
  | sum column => q.sum c column
  | avg? column => q.avg? c column
  | min? column => q.min? c column
  | max? column => q.max? c column
  | insert row => q.insert c row
  | insertMany rows => q.insertMany c rows
  | insertedKey row key => q.insertedKey c row key
  | update assignments => q.update c assignments
  | increment column amount => q.increment c column amount
  | decrement column amount => q.decrement c column amount
  | delete => q.delete c
  | truncate => q.truncate c

/-- The value of an aggregate in an answer. -/
def aggregateOf (out : Output) : Option Value :=
  (out.rows.head?.bind fun row => cell? row Aggregate.label).filter fun v => !v.isNull

/-- The insertion that returns a key, in dialects that have one. -/
def keyedInsert (driver : String) (d : Dialect) (q : Query) (row : List Assignment)
    (key : String) : Except Fault Statement := do
  let s ← q.insertStatement d (row.map Prod.fst) [row.map Prod.snd]
  if d.supportsReturning then pure (Adapter.returning s key)
  else throw (.configuration (.insertedKey driver))

/-- **The plan of an operation on a query**: one statement, and how its answer is read. Without
rows to insert there is no statement. -/
def Terminal.plan (driver : String) (d : Dialect) (q : Query) : Terminal α → Plan υ α
  | get => one (q.selectStatement d) Output.rows
  | first? => one ((q.take 1).selectStatement d) fun out => out.rows.head?
  | find? key =>
    one (((q.whereEq defaultKey key).take 1).selectStatement d) fun out => out.rows.head?
  | value? column =>
    one (((q.select [column]).take 1).selectStatement d) fun out =>
      out.rows.head?.bind fun row => cell? row column
  | pluck column =>
    one ((q.select [column]).selectStatement d) fun out =>
      out.rows.map fun row => (cell? row column).getD .null
  | exists? => one (q.existsStatement d) fun out => !out.rows.isEmpty
  | lacks => one (q.existsStatement d) fun out => out.rows.isEmpty
  | aggregate? a column => one (q.aggregateStatement d a column) aggregateOf
  | count => one (q.aggregateStatement d .count "*") fun out => countOf (aggregateOf out)
  | sum column =>
    one (q.aggregateStatement d .sum column) fun out =>
      ((aggregateOf out).bind Value.toNumber).getD Double.zero
  | avg? column =>
    one (q.aggregateStatement d .avg column) fun out => (aggregateOf out).bind Value.toNumber
  | min? column => one (q.aggregateStatement d .min column) aggregateOf
  | max? column => one (q.aggregateStatement d .max column) aggregateOf
  | insert row =>
    one (q.insertStatement d (row.map Prod.fst) [row.map Prod.snd]) Output.count
  | insertMany rows =>
    if rows.isEmpty then pure 0
    else
      let columns := columnsOf rows
      one (q.insertStatement d columns (rows.map (laidOut columns))) Output.count
  | insertedKey row key =>
    one (q.keyedInsert driver d row key) fun out => out.rows.head?.bind fun row => row.get? key
  | update assignments => one (q.updateStatement d assignments) Output.count
  | increment column amount =>
    one (q.updateStatement d [(column, .raw ⟨column ++ " + ?", [amount]⟩)]) Output.count
  | decrement column amount =>
    one (q.updateStatement d [(column, .raw ⟨column ++ " - ?", [amount]⟩)]) Output.count
  | delete => one (q.deleteStatement d) Output.count
  | truncate => one (q.truncateStatement d) fun _ => ()

end

section

variable {υ α : Type} {driver name : String} {d : Dialect} {scope : Except Fault (Option String)}
variable {strict : Prop}

/-- A statement for rows is asked once it is compiled. -/
theorem follows_rows (r : Except Fault Statement) :
    Follows (υ := υ) name strict (one r Output.rows)
      (.ofExcept r >>= (Script.connection driver d name scope).select) :=
  .compiled fun s _ => .dispatch .select (Script.from_rows s)

/-- So is a statement for a change, of whichever kind. -/
theorem follows_change (kind : StatementKind) (r : Except Fault Statement) :
    Follows (υ := υ) name strict (one r Output.count) (.ofExcept r >>= fun s =>
      (Script.connection driver d name scope).dispatch kind s
        ((Script.adapter driver d name).change s)) :=
  .compiled fun s _ => .dispatch kind (Script.from_change s)

theorem follows_aggregate (q : Query) (a : Aggregate) (column : String) :
    Follows (υ := υ) name strict (one (q.aggregateStatement d a column) aggregateOf)
      (q.aggregate? (Script.connection driver d name scope) a column) :=
  .compiled fun s _ => (Follows.dispatch .select (Script.from_rows s)).map fun _ => rfl

theorem follows_exists (q : Query) :
    Follows (υ := υ) name strict (one (q.existsStatement d) fun out => !out.rows.isEmpty)
      (q.exists? (Script.connection driver d name scope)) :=
  .compiled fun s _ => (Follows.dispatch .select (Script.from_rows s)).map fun _ => rfl

theorem from_insertedKey (hd : d.supportsReturning = true) (s : Statement) (key : String)
    (st : Script υ) :
    ((Script.adapter driver d name).insertedKey s key).from_ st =
      ((st.reply name).map fun out => out.rows.head?.bind fun row => row.get? key,
        st.receive (Script.request name (Adapter.returning s key))) := by
  have hdialect : (Script.adapter driver d name : Adapter (Script υ)).dialect = d := rfl
  rw [Adapter.insertedKey, hdialect, if_pos hd, Action.from_bind, Script.from_rows]
  cases st.reply name <;> rfl

theorem follows_insertedKey (q : Query) (row : List Assignment) (key : String) :
    Follows (υ := υ) name strict
      (one (q.keyedInsert driver d row key) fun out =>
        out.rows.head?.bind fun row => row.get? key)
      (q.insertedKey (Script.connection driver d name scope) row key) := by
  have hdialect : (Script.connection driver d name scope : Connection (Script υ)).dialect = d := rfl
  rw [insertedKey, keyedInsert, hdialect]
  cases q.insertStatement d (row.map Prod.fst) [row.map Prod.snd] with
  | error cause => exact .compiled (r := .error cause) nofun
  | ok s =>
    show Follows name strict (one (if d.supportsReturning then .ok (Adapter.returning s key)
      else .error (.configuration (.insertedKey driver))) _) _
    by_cases hd : d.supportsReturning = true
    · rw [if_pos hd]
      exact .dispatch .insert (from_insertedKey hd s key)
    · rw [if_neg hd]
      have hthrow : (Script.adapter driver d name : Adapter (Script υ)).insertedKey s key =
          throw (.configuration (.insertedKey driver)) := if_neg hd
      show Follows name strict _ ((Script.connection driver d name scope).dispatch .insert s
        ((Script.adapter driver d name).insertedKey s key))
      rw [hthrow]
      exact .dispatch_throw .insert s _ _

/-- **An operation on a query follows its plan.** -/
theorem Terminal.follows (q : Query) (op : Terminal α) :
    Follows (υ := υ) name strict (op.plan driver d q)
      (op.run q (Script.connection driver d name scope)) := by
  cases op with
  | get => exact follows_rows _
  | first? => exact (follows_rows _).map fun _ => rfl
  | find? key => exact (follows_rows _).map fun _ => rfl
  | value? column => exact ((follows_rows _).map fun _ => rfl).map fun _ => rfl
  | pluck column => exact (follows_rows _).map fun _ => rfl
  | exists? => exact follows_exists q
  | lacks => exact (follows_exists q).map fun out => (Bool.not_not _).symm
  | aggregate? a column => exact follows_aggregate q a column
  | count => exact (follows_aggregate q .count "*").map fun _ => rfl
  | sum column => exact (follows_aggregate q .sum column).map fun _ => rfl
  | avg? column => exact (follows_aggregate q .avg column).map fun _ => rfl
  | min? column => exact follows_aggregate q .min column
  | max? column => exact follows_aggregate q .max column
  | insert row => exact follows_change .insert _
  | insertMany rows =>
    simp only [plan, run, Query.insertMany]
    split
    · exact .pure 0
    · exact follows_change .insert _
  | insertedKey row key => exact follows_insertedKey q row key
  | update assignments => exact follows_change .update _
  | increment column amount => exact follows_change .update _
  | decrement column amount => exact follows_change .update _
  | delete => exact follows_change .delete _
  | truncate =>
    exact .compiled fun s _ => (Follows.dispatch .statement (Script.from_change s)).map fun _ => rfl

end

end Query

end ActiveRow
