import ActiveRow.Statement.Change

/-!
# Compiling a query

Every statement that a query is compiled to, by its form. Compiling first checks the query, then
lays the statement out in pieces, and turns the pieces into text and values last.

* `statement_eq`: these are the only steps, whatever the form.
* `layout_eq`: but for the emptying of a table, the dialect shows in the pieces only where an offset
  stands without a limit.
* `layout_frame`: what a statement says beside the tests of rows and of groups, and where it has the
  place for these.
-/

namespace ActiveRow

namespace Piece

/-- A compiled statement is its pieces rendered. -/
theorem finish_eq_ok {style : Placeholder} {ps : List Piece} {s : Statement}
    (h : finish style ps = .ok s) : s = ⟨render style 0 ps, bindings ps⟩ := by
  unfold finish at h
  split at h <;> cases h
  rfl

theorem finish_text (style : Placeholder) (s : String) :
    finish style [.text s] = pure ⟨s, []⟩ := by
  simp [finish, firstFlaw?, render, bindings, pure, Except.pure]

theorem bindings_separated (separator : String) (parts : List (List Piece)) :
    bindings (separated separator parts) = parts.flatMap bindings := by
  unfold separated
  induction parts with
  | nil => rfl
  | cons p parts ih =>
    cases parts with
    | nil => simp [List.intercalate]
    | cons q parts =>
      rw [List.intercalate_cons_cons, bindings_append, bindings_append, ih]
      simp [bindings]

/-- Parts have the first flaw of the first of them that has one. -/
theorem firstFlaw?_separated (separator : String) (parts : List (List Piece)) :
    firstFlaw? (separated separator parts) = parts.findSome? firstFlaw? := by
  unfold separated
  induction parts with
  | nil => rfl
  | cons p parts ih =>
    cases parts with
    | nil => cases hf : firstFlaw? p <;> simp [hf]
    | cons q parts =>
      rw [List.intercalate_cons_cons, firstFlaw?_append, firstFlaw?_append, ih]
      cases hf : firstFlaw? p <;> simp [hf, firstFlaw?]

/-- The texts of parts, each of which numbers its places on from those before it. -/
def renderEach (style : Placeholder) : Nat → List (List Piece) → List String
  | _, [] => []
  | used, p :: parts => render style used p :: renderEach style (used + (bindings p).length) parts

/-- Parts with a separator between them are rendered one after the other. -/
theorem render_separated (style : Placeholder) (separator : String) (parts : List (List Piece)) :
    ∀ used, render style used (separated separator parts) =
      String.intercalate separator (renderEach style used parts) := by
  unfold separated
  induction parts with
  | nil => intro used; rfl
  | cons p parts ih =>
    intro used
    cases parts with
    | nil => simp only [List.intercalate_singleton, renderEach, String.intercalate_singleton]
    | cons q parts =>
      have hrest := ih (used + (bindings p).length)
      have hsplit : render style used (List.intercalate [text separator] (p :: q :: parts)) =
          render style used p ++ (separator ++
            render style (used + (bindings p).length)
              (List.intercalate [text separator] (q :: parts))) := by
        rw [List.intercalate_cons_cons, List.append_assoc, render_append]
        rfl
      simp only [renderEach] at hrest ⊢
      rw [hsplit, hrest, String.intercalate_cons_cons, String.append_assoc]

end Piece

/-- A form of statement, with what it says beside the query. -/
inductive Form where
  | select
  | probe
  | aggregate (a : Aggregate) (column : String)
  | insert (columns : List String) (rows : List (List Operand))
  | update (assignments : List Assignment)
  | delete
  | truncate

namespace Form

/-- The statement of a query in this form. -/
def statement (d : Dialect) (q : Query) : Form → Except Fault Statement
  | select => q.selectStatement d
  | probe => q.existsStatement d
  | aggregate a column => q.aggregateStatement d a column
  | insert columns rows => q.insertStatement d columns rows
  | update assignments => q.updateStatement d assignments
  | delete => q.deleteStatement d
  | truncate => q.truncateStatement d

/-- What a form asks of a query that is valid and has a table. -/
def refusal? (q : Query) : Form → Option Invalid
  | insert columns rows =>
    if columns.isEmpty then none else Query.unevenRow? columns.length 0 rows
  | update assignments =>
    if assignments.isEmpty then some .emptyUpdate
    else if q.joins.isEmpty then none else some .joinedUpdate
  | delete => if q.joins.isEmpty then none else some .joinedDelete
  | _ => none

/-- The table of a query that a statement of this form can be made of. -/
def check (q : Query) (f : Form) : Except Fault String := do
  q.validate
  let table ← q.requireTable
  match f.refusal? q with
  | some cause => throw (.validation cause)
  | none => pure table

theorem check_eq_ok_iff {q : Query} {f : Form} {table : String} : f.check q = .ok table ↔
    q.firstInvalid = none ∧ q.table = some table ∧ f.refusal? q = none := by
  unfold check Query.validate Query.requireTable
  cases q.firstInvalid with
  | some operator => simp [bind, Except.bind]
  | none =>
    cases q.table with
    | none => simp [bind, Except.bind]
    | some t =>
      cases f.refusal? q with
      | some cause => simp [bind, Except.bind, throw, throwThe, MonadExceptOf.throw]
      | none => simp [bind, Except.bind, pure, Except.pure]

/-- How a table is emptied. -/
def emptying : Dialect → String
  | .postgres | .mysql => "TRUNCATE TABLE "
  | .sqlite | .generic => "DELETE FROM "

/-- The pieces of the statement. -/
def layout (d : Dialect) (table : String) (q : Query) : Form → List Piece
  | select => q.selectPieces d table
  | probe => q.probe.selectPieces d table
  | aggregate a column => q.aggregatePieces d table a column
  | insert columns rows => Query.insertPieces table columns rows
  | update assignments => q.updatePieces table assignments
  | delete => q.deletePieces table
  | truncate => [.text (emptying d ++ table)]

theorem throw_bind {α β : Type} (e : Fault) (k : α → Except Fault β) :
    (throw e : Except Fault α) >>= k = throw e := rfl

/-- **The steps of compiling.** A query is checked, laid out and finished, in this order. -/
theorem statement_eq (d : Dialect) (q : Query) (f : Form) :
    f.statement d q =
      f.check q >>= fun table => Piece.finish d.placeholder (f.layout d table q) := by
  cases f with
  | select => simp [statement, check, refusal?, layout, Query.selectStatement]
  | probe =>
    have hv : q.probe.validate = q.validate := rfl
    have ht : q.probe.requireTable = q.requireTable := rfl
    simp [statement, check, refusal?, layout, Query.existsStatement, Query.selectStatement, hv, ht]
  | aggregate a column => simp [statement, check, refusal?, layout, Query.aggregateStatement]
  | insert columns rows =>
    simp only [statement, check, refusal?, layout, Query.insertStatement, bind_assoc]
    by_cases hc : columns.isEmpty
    · simp [hc]
    · cases Query.unevenRow? columns.length 0 rows <;> simp [hc, throw_bind]
  | update assignments =>
    simp only [statement, check, refusal?, layout, Query.updateStatement, bind_assoc]
    by_cases ha : assignments.isEmpty <;> by_cases hj : q.joins.isEmpty <;>
      simp [ha, hj, throw_bind]
  | delete =>
    simp only [statement, check, refusal?, layout, Query.deleteStatement, bind_assoc]
    by_cases hj : q.joins.isEmpty <;> simp [hj, throw_bind]
  | truncate =>
    simp only [statement, check, refusal?, layout, Query.truncateStatement, bind_assoc, pure_bind,
      Piece.finish_text]
    cases d <;> rfl

/-- What is known of a query that a statement was made of. -/
theorem of_statement_eq_ok {d : Dialect} {q : Query} {f : Form} {s : Statement}
    (h : f.statement d q = .ok s) : q.firstInvalid = none ∧ ∃ table, q.table = some table ∧
      s = ⟨Piece.render d.placeholder 0 (f.layout d table q),
        Piece.bindings (f.layout d table q)⟩ := by
  rw [statement_eq] at h
  cases hcheck : f.check q with
  | error cause => rw [hcheck] at h; cases h
  | ok table =>
    rw [hcheck] at h
    obtain ⟨hvalid, htable, -⟩ := check_eq_ok_iff.1 hcheck
    exact ⟨hvalid, table, htable, Piece.finish_eq_ok h⟩

/-- A dialect that needs no limit beside the offset writes the extent as any other does. -/
theorem extentPieces_eq {d : Dialect} {q : Query}
    (h : d = .mysql → q.limit.isSome ∨ q.offset = none) :
    q.extentPieces d = q.extentPieces .postgres := by
  by_cases hd : d = .mysql
  · rcases h hd with hl | ho
    · obtain ⟨n, hn⟩ := Option.isSome_iff_exists.1 hl
      simp [Query.extentPieces, hn]
    · cases hl : q.limit <;> simp [Query.extentPieces, hl, ho]
  · simp [Query.extentPieces, hd]

theorem selectPieces_eq {d : Dialect} {q : Query} (table : String)
    (h : d = .mysql → q.limit.isSome ∨ q.offset = none) :
    q.selectPieces d table = q.selectPieces .postgres table := by
  simp only [Query.selectPieces, extentPieces_eq h]

/-- **Where the dialect shows.** Only a selection without limit may be laid out differently. -/
theorem layout_eq {d : Dialect} {q : Query} {f : Form} (table : String) (hf : f ≠ .truncate)
    (h : d = .mysql → q.limit.isSome ∨ q.offset = none) :
    f.layout d table q = f.layout .postgres table q := by
  cases f with
  | select => exact selectPieces_eq table h
  | probe => exact selectPieces_eq table fun _ => .inl rfl
  | aggregate a column =>
    -- an aggregate drops the extent of its query, so there is nothing to write
    have hc : q.counted.offset = none := by
      simp only [Query.counted]; split <;> rfl
    simp only [layout, Query.aggregatePieces]
    rw [selectPieces_eq (q := q.counted) table fun _ => .inr hc,
      selectPieces_eq (q := q.aggregated a column) table fun _ => .inr rfl]
  | insert columns rows => rfl
  | update assignments => rfl
  | delete => rfl
  | truncate => exact absurd rfl hf

end Form

/-! ### The place of the predicate -/

/-- The pieces of a SELECT, with these as the tests of rows and of groups. -/
def Query.selectFrame (d : Dialect) (table : String) (q : Query) (rows groups : List Piece) :
    List Piece :=
  [.text "SELECT "] ++ (if q.distinct then [.text "DISTINCT "] else []) ++ q.columnPieces ++
    [.text " FROM ", .text table] ++ q.joins.flatMap Join.pieces ++ rows ++ q.groupPieces ++
    groups ++ q.orderPieces ++ q.extentPieces d

theorem Query.selectPieces_frame (d : Dialect) (table : String) (q : Query) :
    q.selectPieces d table = q.selectFrame d table (Clause.listPieces " WHERE " q.wheres)
      (Clause.listPieces " HAVING " q.havings) := rfl

/-- The rows that are counted are selected alike, but for the tests. -/
theorem Query.selectFrame_counted (d : Dialect) (table : String) (q : Query) (ws hs : List Clause)
    (rows groups : List Piece) :
    ({ q with wheres := ws, havings := hs } : Query).counted.selectFrame d table rows groups =
      q.counted.selectFrame d table rows groups := by
  by_cases hx : (!q.distinct || q.columns.isEmpty) = true <;>
    simp only [counted, unbounded, hx] <;> rfl

/-- A SELECT has one place for the tests of rows. -/
theorem Query.exists_selectFrame (d : Dialect) (table : String) (q : Query) (groups : List Piece) :
    ∃ before after : List Piece, ∀ rows,
      q.selectFrame d table rows groups = before ++ rows ++ after :=
  ⟨[.text "SELECT "] ++ (if q.distinct then [.text "DISTINCT "] else []) ++ q.columnPieces ++
      [.text " FROM ", .text table] ++ q.joins.flatMap Join.pieces,
    q.groupPieces ++ groups ++ q.orderPieces ++ q.extentPieces d,
    fun rows => by simp only [selectFrame, List.append_assoc]⟩

namespace Form

/-- The pieces of a statement, with these as the tests of rows and of groups, where the form has a
place for them. -/
def frame (d : Dialect) (table : String) (q : Query) (rows groups : List Piece) :
    Form → List Piece
  | select => q.selectFrame d table rows groups
  | probe => q.probe.selectFrame d table rows groups
  | aggregate a column =>
    if q.countsRows a then
      [.text ("SELECT " ++ a.expression column ++ " FROM (")] ++
        q.counted.selectFrame d table rows groups ++ [.text ") AS aggregate_table"]
    else (q.aggregated a column).selectFrame d table rows groups
  | insert columns added => Query.insertPieces table columns added
  | update assignments =>
    [.text "UPDATE ", .text table, .text " SET "] ++
      Piece.separated ", " (assignments.map Query.assignmentPieces) ++ rows
  | delete => [.text "DELETE FROM ", .text table] ++ rows
  | truncate => [.text (emptying d ++ table)]

theorem wheres_counted (q : Query) : q.counted.wheres = q.wheres := by
  simp only [Query.counted]; split <;> rfl

theorem havings_counted (q : Query) : q.counted.havings = q.havings := by
  simp only [Query.counted]; split <;> rfl

/-- **A statement is its frame** around the tests of its query. -/
theorem layout_frame (f : Form) (d : Dialect) (table : String) (q : Query) :
    f.layout d table q = f.frame d table q (Clause.listPieces " WHERE " q.wheres)
      (Clause.listPieces " HAVING " q.havings) := by
  cases f with
  | aggregate a column =>
    have hcounted := q.counted.selectPieces_frame d table
    rw [wheres_counted, havings_counted] at hcounted
    simp only [layout, frame, Query.aggregatePieces, hcounted]
    rfl
  | _ => rfl

/-- The frame does not depend on the tests of rows. -/
theorem frame_wheres (f : Form) (d : Dialect) (table : String) (q : Query) (cs : List Clause)
    (rows groups : List Piece) :
    f.frame d table { q with wheres := cs } rows groups = f.frame d table q rows groups := by
  cases f with
  | aggregate a column =>
    simp only [frame, q.selectFrame_counted d table cs q.havings]
    rfl
  | _ => rfl

/-- A statement of this form says which rows it is about: it has one place for the tests of its
query, and all else it says does not depend on them. -/
def Filters (f : Form) : Prop :=
  ∀ (d : Dialect) (table : String) (q : Query), ∃ before after : List Piece, ∀ cs : List Clause,
    f.layout d table { q with wheres := cs } = before ++ Clause.listPieces " WHERE " cs ++ after

/-- Such a form has one place for the tests of rows in its frame. -/
theorem filters_of_frame {f : Form}
    (h : ∀ (d : Dialect) (table : String) (q : Query) (groups : List Piece),
      ∃ before after : List Piece, ∀ rows,
        f.frame d table q rows groups = before ++ rows ++ after) : f.Filters := by
  intro d table q
  obtain ⟨before, after, hframe⟩ := h d table q (Clause.listPieces " HAVING " q.havings)
  refine ⟨before, after, fun cs => ?_⟩
  rw [layout_frame, frame_wheres, hframe]

theorem filters_select : select.Filters :=
  filters_of_frame fun d table q groups => q.exists_selectFrame d table groups

theorem filters_probe : probe.Filters :=
  filters_of_frame fun d table q groups => q.probe.exists_selectFrame d table groups

theorem filters_aggregate (a : Aggregate) (column : String) : (aggregate a column).Filters := by
  refine filters_of_frame fun d table q groups => ?_
  by_cases hrows : q.countsRows a
  · -- the tests stand in the statement that is counted
    obtain ⟨before, after, h⟩ := q.counted.exists_selectFrame d table groups
    refine ⟨[.text ("SELECT " ++ a.expression column ++ " FROM (")] ++ before,
      after ++ [.text ") AS aggregate_table"], fun rows => ?_⟩
    rw [frame, if_pos hrows, h]
    simp only [List.append_assoc]
  · obtain ⟨before, after, h⟩ := (q.aggregated a column).exists_selectFrame d table groups
    refine ⟨before, after, fun rows => ?_⟩
    rw [frame, if_neg hrows, h]

theorem filters_update (values : List Assignment) : (update values).Filters :=
  filters_of_frame fun _ table _ _ =>
    ⟨[.text "UPDATE ", .text table, .text " SET "] ++
      Piece.separated ", " (values.map Query.assignmentPieces), [],
      fun _ => (List.append_nil _).symm⟩

theorem filters_delete : delete.Filters :=
  filters_of_frame fun _ table _ _ =>
    ⟨[.text "DELETE FROM ", .text table], [], fun _ => (List.append_nil _).symm⟩

end Form

end ActiveRow
