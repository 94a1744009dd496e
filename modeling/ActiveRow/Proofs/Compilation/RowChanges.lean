import Mathlib.Data.List.Forall2
import Mathlib.Data.List.Perm.Subperm
import ActiveRow.Proofs.Compilation.CountedRows
import ActiveRow.Proofs.Predicate.Fork
import ActiveRow.Proofs.Selection.Table

/-!
# The rows that changes reach

A statement that changes or removes rows says which rows it is about by the tests of its query, and
is refused when the query has joins. Of the other clauses that restrict the rows of a query it says
nothing: groups, tests of groups, a limit and an offset are dropped. So a change reaches exactly the
rows that the query gives when there are none of these, and else, on some database, a row that the
query does not give.

* `RowChange.compiled`: what a change that compiles says.
* `Database.perm_of_restricted`: a query that restricts its rows by tests alone gives all that pass.
* `Database.exists_missed`: any other one misses a row that passes.
* `RowChange.reaches`: both, for every change that compiles.
-/

namespace ActiveRow

open List (Forall₂)

/-- A statement that changes rows of a table, or removes them. -/
inductive RowChange where
  | update (assignments : List Assignment)
  | delete

namespace RowChange

def form : RowChange → Form
  | update assignments => .update assignments
  | delete => .delete

/-- What a change says: the table, what becomes of its rows, and the tests of the rows. -/
def pieces (table : String) (tests : List Clause) : RowChange → List Piece
  | update assignments =>
    [.text "UPDATE ", .text table, .text " SET "] ++
      Piece.separated ", " (assignments.map Query.assignmentPieces) ++
      Clause.listPieces " WHERE " tests
  | delete => [.text "DELETE FROM ", .text table] ++ Clause.listPieces " WHERE " tests

variable (m : RowChange) (d : Dialect) (q : Query)

theorem statement_eq : m.form.statement d q =
    m.form.check q >>= fun table => Piece.finish d.placeholder (m.pieces table q.wheres) := by
  cases m <;> exact Form.statement_eq d q _

variable {m d q}

theorem joins_eq_nil (h : m.form.refusal? q = none) : q.joins = [] := by
  cases m with
  | update assignments =>
    simp only [form, Form.refusal?] at h
    split at h
    · cases h
    · simpa using h
  | delete => simpa [form, Form.refusal?] using h

/-- **A change that compiles** says its table and the tests of its query, which has no joins. -/
theorem compiled {stmt : Statement} (h : m.form.statement d q = .ok stmt) :
    ∃ table, q.firstInvalid = none ∧ q.table = some table ∧ q.joins = [] ∧
      Piece.finish d.placeholder (m.pieces table q.wheres) = .ok stmt := by
  rw [statement_eq] at h
  cases hcheck : m.form.check q with
  | error cause =>
    rw [hcheck] at h
    cases h
  | ok table =>
    rw [hcheck] at h
    obtain ⟨hvalid, htable, hrefusal⟩ := Form.check_eq_ok_iff.1 hcheck
    exact ⟨table, hvalid, htable, joins_eq_nil hrefusal, h⟩

/-- **A query with joins is refused.** -/
theorem refused {table : String} (hjoins : q.joins ≠ []) (hvalid : q.firstInvalid = none)
    (htable : q.table = some table) :
    ∃ cause, m.form.statement d q = .error (.validation cause) := by
  obtain ⟨cause, hrefusal⟩ : ∃ cause, m.form.refusal? q = some cause :=
    Option.ne_none_iff_exists'.1 fun h => hjoins (joins_eq_nil h)
  have hcheck : m.form.check q = .error (.validation cause) := by
    simp only [Form.check, Query.validate, Query.requireTable, hvalid, htable, hrefusal]
    rfl
  rw [statement_eq, hcheck]
  exact ⟨cause, rfl⟩

end RowChange

/-! ### What a query gives -/

/-- The query of all columns, where equal rows are not shown as one. -/
def Query.wholeRows (q : Query) : Query := { q with columns := [], distinct := false }

/-- Whether tests alone restrict the rows of a query. -/
def Query.RestrictedByTests (q : Query) : Prop :=
  q.groups = [] ∧ Clause.areVacant q.havings = true ∧ q.limit = none ∧
    (q.offset = none ∨ q.offset = some 0)

namespace Database

variable {ρ κ : Type} [DecidableEq κ] (db : Database ρ κ) (table : String)

/-- Whether a query of whole rows may give these rows: one of those that are shown as one, each
time, in some order, cut at the extent of the query. -/
def Gives (q : Query) (given : List ρ) : Prop :=
  ∃ chosen arranged : List ρ, Forall₂ (· ∈ ·) chosen (db.shown table q) ∧
    arranged.Perm chosen ∧ given = q.cut arranged

variable {db table}

/-- **A query restricted by tests alone** gives the rows that pass them. -/
theorem perm_of_restricted {q : Query} (hq : q.RestrictedByTests) {given : List ρ}
    (h : db.Gives table q given) : given.Perm (db.passing table q.joins q.wheres) := by
  obtain ⟨hgroups, hvacant, hlimit, hoffset⟩ := hq
  obtain ⟨chosen, arranged, hchosen, hperm, rfl⟩ := h
  have hshown : db.shown table q =
      (db.passing table q.joins q.wheres).map fun row => [row] := by
    simp [shown, hgroups, hvacant]
  have hcut : q.cut arranged = arranged := by
    rcases hoffset with hoffset | hoffset <;> simp [Query.cut, hlimit, hoffset]
  -- the only choice among single rows is the rows
  have hrows : chosen = db.passing table q.joins q.wheres := by
    rw [hshown, List.forall₂_map_right_iff] at hchosen
    simpa [List.forall₂_eq_eq_eq] using hchosen
  rw [hcut, ← hrows]
  exact hperm

/-! ### What a query misses -/

/-- What is shown as one are rows, when there are any. -/
theorem ne_nil_of_mem_shown {q : Query} (hrows : db.passing table q.joins q.wheres ≠ [])
    {rows : List ρ} (h : rows ∈ db.shown table q) : rows ≠ [] := by
  unfold shown at h
  simp only at h
  split at h
  · obtain ⟨row, -, rfl⟩ := List.mem_map.1 h
    exact List.cons_ne_nil _ _
  · have hgroup := (List.mem_filter.1 h).1
    unfold grouped at hgroup
    split at hgroup
    · rw [List.mem_singleton.1 hgroup]
      exact hrows
    · obtain ⟨key, hkey, rfl⟩ := List.mem_map.1 hgroup
      obtain ⟨row, hrow, rfl⟩ := List.mem_map.1 (List.mem_dedup.1 hkey)
      exact List.ne_nil_of_mem (List.mem_filter.2 ⟨hrow, decide_eq_true rfl⟩)

theorem exists_chosen : ∀ {shown : List (List ρ)}, (∀ rows ∈ shown, rows ≠ []) →
    ∃ chosen, Forall₂ (· ∈ ·) chosen shown
  | [], _ => ⟨[], .nil⟩
  | rows :: shown, h => by
    obtain ⟨hrows, hshown⟩ := List.forall_mem_cons.1 h
    obtain ⟨row, hrow⟩ := List.exists_mem_of_ne_nil rows hrows
    obtain ⟨chosen, hchosen⟩ := exists_chosen hshown
    exact ⟨row :: chosen, .cons hrow hchosen⟩

end Database

namespace Predicate.Verdict

/-- The verdict that every test holds. -/
def always : Verdict where
  chain _ := ⟨true, []⟩
  single _ _ := rfl

theorem passes_always (cs : List Clause) : always.passes cs := by
  have htrue := value_listItems always.chain cs fun _ _ => ⟨rfl, by simp [always]⟩
  rw [passes_iff]
  cases h : listItems always.chain cs with
  | nil => rfl
  | cons e rest =>
    rw [h] at htrue
    rw [value, htrue e List.mem_cons_self]
    exact valueFrom_of_true fun e he => htrue e (List.mem_cons_of_mem _ he)

end Predicate.Verdict

namespace Database

/-- A table of so many rows that pass every test and agree in every column. -/
def uniform (n : Nat) : Database Nat Unit where
  joined _ _ := List.range n
  verdict _ := .always
  groupVerdict _ := .always
  whole _ := ()
  named _ _ := ()
  fragment _ _ := ()
  constant _ _ := rfl

variable (n : Nat) (table : String)

theorem passing_uniform (joins : List Join) (tests : List Clause) :
    (uniform n).passing table joins tests = List.range n :=
  List.filter_eq_self.2 fun _ _ => decide_eq_true (Predicate.Verdict.passes_always tests)

/-- Rows that agree are one group at most. -/
theorem length_grouped_uniform (columns : List String) (rows : List Nat) :
    ((uniform n).grouped columns rows).length ≤ 1 := by
  unfold grouped
  split
  · exact le_refl 1
  · have hone := Query.length_dedup_constant (f := fun row : Nat =>
      columns.map fun column => (uniform n).named column [row]) (fun _ _ => rfl) rows
    rw [List.length_map, hone]
    exact Nat.min_le_right _ _

/-- More rows than a query with an extent gives. -/
def beyond (q : Query) : Nat := (q.limit.getD 0).toNat + (q.offset.getD 0).toNat + 2

variable {n table}

/-- A query that is not restricted by tests alone gives fewer rows than there are. -/
theorem length_lt_of_gives {q : Query} (hq : ¬q.RestrictedByTests) {given : List Nat}
    (h : (uniform (beyond q)).Gives table q given) : given.length < beyond q := by
  obtain ⟨chosen, arranged, hchosen, hperm, rfl⟩ := h
  have hlength : arranged.length = ((uniform (beyond q)).shown table q).length :=
    hperm.length_eq.trans hchosen.length_eq
  cases hlimit : q.limit with
  | some limit =>
    have hle : (q.cut arranged).length ≤ limit.toNat := by
      simp only [Query.cut, hlimit]
      exact List.length_take_le _ _
    simp only [beyond, hlimit, Option.getD_some]
    omega
  | none =>
    have hle : (q.cut arranged).length ≤ arranged.length := (q.cut_sublist arranged).length_le
    by_cases hplain : (q.groups.isEmpty && Clause.areVacant q.havings) = true
    · -- all rows are shown, and the offset drops some
      have hshown : ((uniform (beyond q)).shown table q).length = beyond q := by
        simp only [shown, if_pos hplain, passing_uniform, List.length_map, List.length_range]
      rw [Bool.and_eq_true, List.isEmpty_iff] at hplain
      cases hoffset : q.offset with
      | none => exact absurd ⟨hplain.1, hplain.2, hlimit, .inl hoffset⟩ hq
      | some offset =>
        have hne : offset ≠ 0 := by
          rintro rfl
          exact hq ⟨hplain.1, hplain.2, hlimit, .inr hoffset⟩
        have hpos := Word.toNat_pos hne
        have hcut : (q.cut arranged).length = arranged.length - offset.toNat := by
          simp only [Query.cut, hlimit, hoffset, List.length_drop]
        have htwo : 2 ≤ beyond q := Nat.le_add_left _ _
        omega
    · -- one row is shown at most
      have hshown : ((uniform (beyond q)).shown table q).length ≤ 1 := by
        simp only [shown, if_neg hplain]
        exact (List.length_filter_le _ _).trans (length_grouped_uniform _ _ _)
      have htwo : 2 ≤ beyond q := Nat.le_add_left _ _
      omega

/-- **A query that is not restricted by tests alone misses a row that passes**, on some
database. -/
theorem exists_missed (table : String) {q : Query} (hq : ¬q.RestrictedByTests) :
    ∃ db : Database Nat Unit, (∃ given, db.Gives table q given) ∧
      ∀ given, db.Gives table q given →
        ∃ row ∈ db.passing table q.joins q.wheres, row ∉ given := by
  refine ⟨uniform (beyond q), ?_, fun given h => ?_⟩
  · have hrows : (uniform (beyond q)).passing table q.joins q.wheres ≠ [] := by
      rw [passing_uniform]
      exact List.ne_nil_of_length_pos (by simp [beyond])
    obtain ⟨chosen, hchosen⟩ := exists_chosen fun rows hmem => ne_nil_of_mem_shown hrows hmem
    exact ⟨q.cut chosen, chosen, chosen, hchosen, .refl chosen, rfl⟩
  · rw [passing_uniform]
    by_contra hall
    push Not at hall
    have hle := (List.subperm_of_subset List.nodup_range hall).length_le
    rw [List.length_range] at hle
    exact absurd (length_lt_of_gives hq h) (Nat.not_lt.2 hle)

end Database

/-! ### Changes and selections -/

/-- **What changes reach.** A query with joins is refused. A statement that changes or removes rows
says its table and the tests of its query, and reaches the rows that pass them; the selection of
whole rows of the same query says all clauses. When tests alone restrict the query, the selection
gives exactly the rows that the change reaches, on every database. When there are groups, tests of
groups, a limit or an offset, there is a database on which the selection gives rows, and never all
that the change reaches. -/
theorem RowChange.reaches (m : RowChange) (d : Dialect) (q : Query) :
    (∀ table, q.joins ≠ [] → q.firstInvalid = none → q.table = some table →
      ∃ cause, m.form.statement d q = .error (.validation cause)) ∧
    ∀ stmt, m.form.statement d q = .ok stmt → ∃ table, q.table = some table ∧ q.joins = [] ∧
      Piece.finish d.placeholder (m.pieces table q.wheres) = .ok stmt ∧
      q.wholeRows.selectStatement d =
        Piece.finish d.placeholder (q.wholeRows.selectPieces d table) ∧
      (q.RestrictedByTests → ∀ {ρ κ : Type} [DecidableEq κ] (db : Database ρ κ) (given : List ρ),
        db.Gives table q.wholeRows given → given.Perm (db.passing table [] q.wheres)) ∧
      (¬q.RestrictedByTests → ∃ db : Database Nat Unit,
        (∃ given, db.Gives table q.wholeRows given) ∧
        ∀ given, db.Gives table q.wholeRows given →
          ∃ row ∈ db.passing table [] q.wheres, row ∉ given) := by
  refine ⟨fun table hjoins hvalid htable => refused hjoins hvalid htable, fun stmt h => ?_⟩
  obtain ⟨table, hvalid, htable, hjoins, hfinish⟩ := compiled h
  have hcheck : Form.select.check q.wholeRows = .ok table :=
    Form.check_eq_ok_iff.2 ⟨hvalid, htable, rfl⟩
  have hselect := Form.statement_eq d q.wholeRows .select
  rw [hcheck] at hselect
  refine ⟨table, htable, hjoins, hfinish, hselect, fun hq ρ κ _ db given hgives => ?_, fun hq => ?_⟩
  · rw [← hjoins]
    exact Database.perm_of_restricted (q := q.wholeRows) hq hgives
  · rw [← hjoins]
    exact Database.exists_missed (q := q.wholeRows) table hq

/-- The rows that pass a test are removed, and are those that are selected; behind a limit, some of
those that are changed are not. -/
theorem RowChange.reaches_tested :
    let tested := (Query.on "t").whereEq "a" (.int 1)
    let set : RowChange := .update [("b", .value (.int 2))]
    RowChange.delete.form.statement .generic tested = .ok ⟨"DELETE FROM t WHERE a = ?", [.int 1]⟩ ∧
      (∀ given, (Database.uniform 3).Gives "t" tested.wholeRows given → given.Perm [0, 1, 2]) ∧
      set.form.statement .generic (tested.take 1) =
        .ok ⟨"UPDATE t SET b = ? WHERE a = ?", [.int 2, .int 1]⟩ ∧
      ∃ db : Database Nat Unit, ∀ given, db.Gives "t" (tested.take 1).wholeRows given →
        ∃ row ∈ db.passing "t" [] tested.wheres, row ∉ given := by
  intro tested set
  have hdelete : RowChange.delete.form.statement .generic tested =
      .ok ⟨"DELETE FROM t WHERE a = ?", [.int 1]⟩ := rfl
  have hset : set.form.statement .generic (tested.take 1) =
      .ok ⟨"UPDATE t SET b = ? WHERE a = ?", [.int 2, .int 1]⟩ := rfl
  obtain ⟨table, htable, -, -, -, hall, -⟩ := (reaches .delete .generic tested).2 _ hdelete
  obtain ⟨table', htable', -, -, -, -, hmissed⟩ := (reaches set .generic (tested.take 1)).2 _ hset
  cases htable
  cases htable'
  obtain ⟨db, -, hdb⟩ := hmissed fun h => nomatch h.2.2.1
  refine ⟨hdelete, fun given hgiven => ?_, hset, db, hdb⟩
  have hperm := hall ⟨rfl, rfl, rfl, .inl rfl⟩ (Database.uniform 3) given hgiven
  rwa [Database.passing_uniform] at hperm

/-- A limit does not keep rows from being removed. -/
theorem RowChange.removes_beyond_limit :
    let q := ((Query.on "t").whereEq "a" (.int 1)).take 1
    q.deleteStatement .generic = .ok ⟨"DELETE FROM t WHERE a = ?", [.int 1]⟩ ∧
      q.selectStatement .generic = .ok ⟨"SELECT * FROM t WHERE a = ? LIMIT 1", [.int 1]⟩ ∧
      q.wholeRows = q ∧
      ¬∀ (db : Database Nat Unit) (given : List Nat), db.Gives "t" q given →
        ∀ row ∈ db.passing "t" q.joins q.wheres, row ∈ given := by
  intro q
  refine ⟨rfl, rfl, rfl, fun h => ?_⟩
  obtain ⟨db, ⟨given, hgiven⟩, hmissed⟩ :=
    Database.exists_missed "t" (q := q) fun hq => nomatch hq.2.2.1
  obtain ⟨row, hrow, hlost⟩ := hmissed given hgiven
  exact hlost (h db given hgiven row hrow)

end ActiveRow
