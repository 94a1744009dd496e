import Mathlib.Data.List.Dedup
import ActiveRow.Proofs.Compilation
import ActiveRow.Proofs.Predicate.Verdict

/-!
# Counting the rows of a query

A database as far as the rows of a query go: the joined rows, verdicts on tests, and cells. A query
gives a row for each row that passes its tests or, if it is grouped, for each group that passes.
Tests of groups without groups are tests of all rows as one group. The columns say what is shown of
each, and a distinct query shows equal rows once.

* `aggregateStatement_count`: a count is written as one of two statements, directly on the joined
  rows, or around a selection.
* `count_value`: what it counts are the rows of the query, but of a distinct query that names no
  column it counts one at most.
-/

namespace ActiveRow

/-- A database whose rows are in `ρ` and whose cells are in `κ`. Cells are of the rows that are
shown as one: a single row, or the rows of a group. -/
structure Database (ρ κ : Type) where
  joined : String → List Join → List ρ
  verdict : ρ → Predicate.Verdict
  groupVerdict : List ρ → Predicate.Verdict
  whole : List ρ → κ
  named : String → List ρ → κ
  fragment : Raw → List ρ → κ
  constant : ∀ rows rows', fragment ⟨"1", []⟩ rows = fragment ⟨"1", []⟩ rows'

namespace Database

variable {ρ κ : Type} [DecidableEq κ] (db : Database ρ κ) (table : String)

/-- The joined rows that pass the tests. -/
def passing (joins : List Join) (tests : List Clause) : List ρ :=
  (db.joined table joins).filter fun row => (db.verdict row).passes tests

/-- Rows in groups that agree in the columns. Without columns, all rows are one group. -/
def grouped (columns : List String) (rows : List ρ) : List (List ρ) :=
  if columns.isEmpty then [rows]
  else
    let cells (row : ρ) := columns.map fun column => db.named column [row]
    (rows.map cells).dedup.map fun key => rows.filter fun row => cells row = key

/-- What a query shows as one row each: the rows that pass, or the groups of them that pass. -/
def shown (q : Query) : List (List ρ) :=
  let rows := db.passing table q.joins q.wheres
  if q.groups.isEmpty && Clause.areVacant q.havings then rows.map fun row => [row]
  else (db.grouped q.groups rows).filter fun group => (db.groupVerdict group).passes q.havings

def cell (rows : List ρ) : Column → κ
  | .name column => db.named column rows
  | .raw r => db.fragment r rows

/-- What a query shows of the rows that are shown as one. -/
def projected (q : Query) (rows : List ρ) : List κ :=
  if q.columns.isEmpty then [db.whole rows] else q.columns.map (db.cell rows)

/-- The rows of a query that has no order and no extent. -/
def rows (q : Query) : List (List κ) :=
  let all := (db.shown table q).map (db.projected q)
  if q.distinct then all.dedup else all

end Database

/-! ### Counts as statements -/

/-- A statement that counts: joined rows that pass tests, or the rows of a selection. -/
inductive Counting where
  | direct (joins : List Join) (tests : List Clause)
  | around (q : Query)

namespace Counting

def pieces (d : Dialect) (table : String) : Counting → List Piece
  | direct joins tests =>
    [.text "SELECT ", .text "COUNT(*) AS aggregate", .text " FROM ", .text table] ++
      joins.flatMap Join.pieces ++ Clause.listPieces " WHERE " tests
  | around q =>
    [.text "SELECT COUNT(*) AS aggregate FROM ("] ++ q.selectPieces d table ++
      [.text ") AS aggregate_table"]

/-- The count. -/
def value {ρ κ : Type} [DecidableEq κ] (db : Database ρ κ) (table : String) : Counting → Nat
  | direct joins tests => (db.passing table joins tests).length
  | around q => (db.rows table q).length

end Counting

namespace Query

/-- How a count of everything is written. -/
def counting (q : Query) : Counting :=
  if q.countsRows .count then .around q.counted else .direct q.joins q.wheres

variable (q : Query)

theorem expression_count : Aggregate.count.expression "*" = "COUNT(*) AS aggregate" := by decide

/-- A count that is written directly is of a query without groups and distinct rows. -/
theorem plain_of_not_countsRows {q : Query} (h : ¬q.countsRows .count = true) :
    q.groups = [] ∧ q.havings = [] ∧ q.distinct = false := by
  simpa [countsRows, and_assoc] using h

theorem aggregatePieces_count (d : Dialect) (table : String) :
    q.aggregatePieces d table .count "*" = q.counting.pieces d table := by
  by_cases hrows : q.countsRows .count = true
  · have htext : "SELECT " ++ Aggregate.count.expression "*" ++ " FROM (" =
        "SELECT COUNT(*) AS aggregate FROM (" := by
      rw [expression_count]
      decide
    rw [aggregatePieces, if_pos hrows, counting, if_pos hrows, htext]
    rfl
  · obtain ⟨hgroups, hhavings, -⟩ := plain_of_not_countsRows hrows
    have hnone : Clause.listPieces " HAVING " [] = [] := rfl
    rw [aggregatePieces, if_neg hrows, counting, if_neg hrows]
    simp [Counting.pieces, selectPieces, aggregated, unbounded, columnPieces, groupPieces,
      orderPieces, extentPieces, hgroups, hhavings, hnone, expression_count, Column.pieces,
      Raw.pieces, Piece.separated]

/-- **A count is written directly or around a selection.** -/
theorem aggregateStatement_count (d : Dialect) : q.aggregateStatement d .count "*" =
    Form.select.check q >>= fun table =>
      Piece.finish d.placeholder (q.counting.pieces d table) := by
  have h := Form.statement_eq d q (.aggregate .count "*")
  simp only [Form.layout, aggregatePieces_count] at h
  exact h

/-! ### What is counted -/

section

variable {ρ κ : Type} [DecidableEq κ] (db : Database ρ κ) (table : String)

/-- What a count is written around differs from the query in its columns at most. -/
theorem counted_eq : q.counted = { q.unbounded with
    columns := if !q.distinct || q.columns.isEmpty then [.raw ⟨"1", []⟩] else q.columns } := by
  by_cases h : (!q.distinct || q.columns.isEmpty) = true <;> simp [counted, unbounded, h]

/-- Columns do not decide what is shown as one row. -/
theorem shown_counted : db.shown table q.counted = db.shown table q.unbounded := by
  rw [counted_eq]
  rfl

theorem distinct_counted : q.counted.distinct = q.distinct := by
  rw [counted_eq]
  rfl

/-- Equal rows are shown once, so of any number of them there is one. -/
theorem length_dedup_constant {α β : Type} [DecidableEq β] {f : α → β}
    (hf : ∀ a a', f a = f a') (l : List α) : (l.map f).dedup.length = min l.length 1 := by
  cases l with
  | nil => rfl
  | cons a l =>
    have hall : (a :: l).map f = List.replicate (l.length + 1) (f a) :=
      List.eq_replicate_iff.2 ⟨by simp, fun b hb => by
        obtain ⟨a', -, rfl⟩ := List.mem_map.1 hb
        exact hf a' a⟩
    have hlen : (a :: l).length = l.length + 1 := rfl
    rw [hall, List.replicate_dedup (Nat.succ_ne_zero _), List.length_singleton]
    omega

theorem min_length_dedup {α : Type} [DecidableEq α] (l : List α) :
    min l.dedup.length 1 = min l.length 1 := by
  cases l with
  | nil => rfl
  | cons a l =>
    have hpos : 0 < (a :: l).dedup.length :=
      List.length_pos_of_mem (List.mem_dedup.2 List.mem_cons_self)
    have hlen : (a :: l).length = l.length + 1 := rfl
    omega

/-- A selection that is not distinct has a row for each of what is shown. -/
theorem length_rows_all {q : Query} (hdistinct : q.distinct = false) :
    (db.rows table q).length = (db.shown table q).length := by
  simp [Database.rows, hdistinct]

/-- There is a row if anything is shown. -/
theorem min_length_rows : min (db.rows table q).length 1 = min (db.shown table q).length 1 := by
  by_cases hdistinct : q.distinct = true
  · have hlen := min_length_dedup ((db.shown table q).map (db.projected q))
    rw [Database.rows, if_pos hdistinct, hlen, List.length_map]
  · rw [length_rows_all db table (by simpa using hdistinct)]

/-- A distinct selection of the constant has one row at most. -/
theorem length_rows_constant {q : Query} (hcolumns : q.columns = [.raw ⟨"1", []⟩])
    (hdistinct : q.distinct = true) :
    (db.rows table q).length = min (db.shown table q).length 1 := by
  have hconstant : ∀ rows rows', db.projected q rows = db.projected q rows' := by
    intro rows rows'
    simp [Database.projected, hcolumns, Database.cell, db.constant rows rows']
  rw [Database.rows, if_pos hdistinct, length_dedup_constant hconstant]

/-- A count around a selection. -/
theorem length_rows_counted : (db.rows table q.counted).length =
    if q.distinct = true ∧ q.columns = [] then min (db.rows table q.unbounded).length 1
    else (db.rows table q.unbounded).length := by
  by_cases hdistinct : q.distinct = true
  · by_cases hcolumns : q.columns = []
    · have hconstant : q.counted.columns = [.raw ⟨"1", []⟩] := by
        simp [counted_eq, hcolumns]
      have hone := length_rows_constant db table hconstant (q.distinct_counted.trans hdistinct)
      rw [if_pos ⟨hdistinct, hcolumns⟩, hone, shown_counted, min_length_rows]
    · have hsame : q.counted = q.unbounded := by
        simp [counted_eq, unbounded, hdistinct, hcolumns]
      rw [if_neg fun h => hcolumns h.2, hsame]
  · have hall : q.distinct = false := by simpa using hdistinct
    have hunbounded : q.unbounded.distinct = false := hall
    rw [if_neg fun h => hdistinct h.1, length_rows_all db table (q.distinct_counted.trans hall),
      shown_counted, length_rows_all db table hunbounded]

/-- **What a count counts.** A count and the selection without order and extent are checked alike
and written in these pieces. On every database, the count gives the number of the rows of the
selection, except for a distinct query that names no column: then it is one at most. -/
theorem count_value (d : Dialect) :
    (q.aggregateStatement d .count "*" = Form.select.check q >>= fun table =>
      Piece.finish d.placeholder (q.counting.pieces d table)) ∧
    (q.unbounded.selectStatement d = Form.select.check q >>= fun table =>
      Piece.finish d.placeholder (q.unbounded.selectPieces d table)) ∧
    q.counting.value db table =
      let all := (db.rows table q.unbounded).length
      if q.distinct = true ∧ q.columns = [] then min all 1 else all := by
  refine ⟨q.aggregateStatement_count d, Form.statement_eq d q.unbounded .select, ?_⟩
  by_cases hrows : q.countsRows .count = true
  · rw [counting, if_pos hrows]
    exact length_rows_counted q db table
  · obtain ⟨hgroups, hhavings, hplain⟩ := plain_of_not_countsRows hrows
    have hshown : db.shown table q.unbounded =
        (db.passing table q.joins q.wheres).map fun row => [row] := by
      simp [Database.shown, unbounded, hgroups, hhavings, Clause.areVacant]
    have hall : (db.rows table q.unbounded).length =
        (db.passing table q.joins q.wheres).length := by
      rw [length_rows_all db table (q := q.unbounded) hplain, hshown, List.length_map]
    have hdistinct : ¬(q.distinct = true ∧ q.columns = []) := by simp [hplain]
    rw [counting, if_neg hrows]
    simp only [if_neg hdistinct, hall]
    rfl

/-- A distinct count of every column counts one row of two different ones. -/
theorem distinct_count_of_whole_rows :
    ¬ ∀ (db : Database Nat Nat) (table : String) (q : Query),
      (∀ c ∈ q.columns, ∃ name, c = .name name) →
        q.counting.value db table = (db.rows table q.unbounded).length := by
  intro h
  let anything : Predicate.Verdict := ⟨fun _ => ⟨true, []⟩, fun _ _ => rfl⟩
  -- two rows, each of one cell
  let db : Database Nat Nat :=
    { joined := fun _ _ => [0, 1]
      verdict := fun _ => anything
      groupVerdict := fun _ => anything
      whole := fun rows => rows.headD 0
      named := fun _ rows => rows.headD 0
      fragment := fun _ _ => 1
      constant := fun _ _ => rfl }
  have hvalue : (Query.on "t").setDistinct.counting.value db "t" = 1 := by rfl
  have hrows : (db.rows "t" (Query.on "t").setDistinct.unbounded).length = 2 := by rfl
  have heq := h db "t" (Query.on "t").setDistinct (by simp [setDistinct, Query.on])
  rw [hvalue, hrows] at heq
  omega

end

end Query

end ActiveRow
