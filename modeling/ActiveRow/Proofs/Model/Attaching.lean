import Mathlib.Data.List.Induction
import ActiveRow.Loader
import ActiveRow.Proofs.Compilation.Placeholders
import ActiveRow.Proofs.Model.RowStatement
import ActiveRow.Proofs.Model.Saving
import ActiveRow.Proofs.Value.Same

/-!
# Attaching related records

The loader of a relation reads a value off each parent, asks for the related rows of all these
values with one statement, and attaches to each parent the records of its rows. Values are told
apart structurally when they are collected, and by their plain text when rows are matched.

* `distinctValues_eq`: the values that are asked for, each where it is first seen.
* `selectStatement_query`: the statement.
* `attached_setRelation`: what a parent has afterwards, and what it keeps.
* `load_attaches`: what loading asks, and what comes of each reply.
-/

namespace ActiveRow

/-! ### Values of the parents -/

namespace Relation

/-- Values that no earlier one equals. -/
def firstSeen (vs : List Value) : List Value :=
  (vs.zipIdx.filter fun e => !(vs.take e.2).any e.1.same).map Prod.fst

theorem firstSeen_concat (vs : List Value) (v : Value) :
    firstSeen (vs ++ [v]) = firstSeen vs ++ if vs.any v.same then [] else [v] := by
  have hbefore : (vs.zipIdx.filter fun e => !((vs ++ [v]).take e.2).any e.1.same) =
      vs.zipIdx.filter fun e => !(vs.take e.2).any e.1.same := by
    refine List.filter_congr fun e he => ?_
    have hlt : e.2 < vs.length := by simpa using List.snd_lt_add_of_mem_zipIdx he
    rw [List.take_append_of_le_length (Nat.le_of_lt hlt)]
  have hlast : [v].zipIdx vs.length = [(v, vs.length)] := rfl
  rw [firstSeen, List.zipIdx_append, Nat.zero_add, List.filter_append, hbefore, List.map_append,
    hlast]
  by_cases hseen : vs.any v.same = true
  · simp [firstSeen, hseen]
  · simp [firstSeen, hseen]

theorem distinctValues_concat (vs : List Value) (v : Value) : distinctValues (vs ++ [v]) =
    if (distinctValues vs).any v.same then distinctValues vs else distinctValues vs ++ [v] := by
  rw [distinctValues, List.foldl_append]
  rfl

/-- What was dropped equals something that was kept. -/
theorem any_distinctValues (vs : List Value) (v : Value) :
    (distinctValues vs).any v.same = vs.any v.same := by
  induction vs using List.reverseRecOn with
  | nil => rfl
  | append_singleton vs u ih =>
    rw [distinctValues_concat, List.any_append, ← ih]
    by_cases hseen : (distinctValues vs).any u.same = true
    · rw [if_pos hseen]
      by_cases hu : v.same u = true
      · obtain ⟨k, hk, hsame⟩ := List.any_eq_true.1 hseen
        have hany : (distinctValues vs).any v.same = true :=
          List.any_eq_true.2 ⟨k, hk, Value.same_trans hu hsame⟩
        rw [hany]
        rfl
      · simp [hu]
    · rw [if_neg hseen, List.any_append]

/-- **The values that are asked for** are those that no earlier one equals, in their order. -/
theorem distinctValues_eq (vs : List Value) : distinctValues vs = firstSeen vs := by
  induction vs using List.reverseRecOn with
  | nil => rfl
  | append_singleton vs v ih =>
    rw [distinctValues_concat, firstSeen_concat, any_distinctValues, ih]
    split
    · rw [List.append_nil]
    · rfl

/-- No two of them are equal. -/
theorem pairwise_firstSeen (vs : List Value) :
    (firstSeen vs).Pairwise fun earlier later => later.same earlier = false := by
  induction vs using List.reverseRecOn with
  | nil => exact .nil
  | append_singleton vs v ih =>
    rw [firstSeen_concat]
    split
    · rwa [List.append_nil]
    · rename_i hseen
      refine List.pairwise_append.2 ⟨ih, List.pairwise_singleton _ _, ?_⟩
      intro u hu w hw
      obtain rfl := List.mem_singleton.1 hw
      have hany := any_distinctValues vs w
      rw [distinctValues_eq] at hany
      simp only [← hany, List.any_eq_true, not_exists, not_and, Bool.not_eq_true] at hseen
      exact hseen u hu

theorem firstSeen_eq_nil_iff (vs : List Value) : firstSeen vs = [] ↔ vs = [] := by
  induction vs using List.reverseRecOn with
  | nil => exact iff_of_true rfl rfl
  | append_singleton vs v ih =>
    refine iff_of_false (fun hnil => ?_) (by simp)
    rw [firstSeen_concat, List.append_eq_nil_iff, ih] at hnil
    obtain ⟨rfl, hlast⟩ := hnil
    cases hlast

end Relation

/-! ### The statement -/

namespace Model

/-- The statement for the rows of a model that have one of some values in a column. -/
def lookup (m : Model) (d : Dialect) (column : String) (keys : List Value) : Statement where
  sql := "SELECT * FROM " ++ m.table ++ " WHERE " ++ column ++ " IN (" ++
    String.intercalate ", " (marks d.placeholder 0 keys.length) ++ ")" ++
    if m.softDeletes then " AND " ++ m.deletedAt ++ " IS NULL" else ""
  bindings := keys

variable (m : Model) (kind : RelationKind) (column : String) (localKey : Option String)

/-- The tests for related rows. -/
theorem query_related (keys : List Value) : (m.related kind column localKey).query keys =
    { Query.on m.table with wheres := .test .and (.among column keys false) ::
        if m.softDeletes then [.test .and (.isNull m.deletedAt false)] else [] } := by
  rw [Relation.query, related]
  cases m.softDeletes <;> rfl

/-- **The statement for related rows**, if there is a value to ask for. -/
theorem selectStatement_query (d : Dialect) {keys : List Value} (h : keys ≠ []) :
    ((m.related kind column localKey).query keys).selectStatement d =
      .ok (m.lookup d column keys) := by
  let tail : List Piece :=
    if m.softDeletes then [.text " ", .text "AND", .text " ", .text m.deletedAt, .text " IS NULL"]
    else []
  have hpieces : ((m.related kind column localKey).query keys).selectPieces d m.table =
      [.text "SELECT ", .text "*", .text " FROM ", .text m.table, .text " WHERE ", .text column,
        .text " IN ("] ++ Piece.slots keys ++ .text ")" :: tail := by
    rw [query_related]
    cases hmarked : m.softDeletes <;>
      simp [Query.selectPieces, Query.on, Query.columnPieces, Query.groupPieces, Query.orderPieces,
        Query.extentPieces, Clause.listPieces, Clause.areVacant, Clause.isVacant,
        Clause.listTokens, Clause.tokens, Clause.link, Token.pieces, Test.pieces, Connector.sql, h,
        tail, hmarked]
  have hsteps := Form.select.statement_eq d ((m.related kind column localKey).query keys)
  have hcheck : Form.select.check ((m.related kind column localKey).query keys) = .ok m.table := by
    rw [query_related]
    rfl
  rw [hcheck] at hsteps
  refine hsteps.trans ?_
  show Piece.finish d.placeholder
    (((m.related kind column localKey).query keys).selectPieces d m.table) = _
  have htail : Piece.firstFlaw? tail = none ∧ Piece.bindings tail = [] ∧ ∀ used,
      Piece.render d.placeholder used tail =
        if m.softDeletes then " AND " ++ m.deletedAt ++ " IS NULL" else "" := by
    simp only [tail]
    cases m.softDeletes with
    | false => exact ⟨rfl, rfl, fun _ => rfl⟩
    | true =>
      refine ⟨rfl, rfl, fun used => ?_⟩
      have hand : " AND " = " " ++ ("AND" ++ " ") := by decide
      simp only [if_true, Piece.render, hand, String.append_assoc, String.append_empty]
  obtain ⟨hsound, hbindings, hrender⟩ := htail
  rw [hpieces, Piece.finish_of_sound]
  · change Except.ok (Statement.mk _ _) = Except.ok (Statement.mk _ _)
    congr 2
    · have hselect : "SELECT * FROM " = "SELECT " ++ ("*" ++ " FROM ") := by decide
      rw [Piece.render_append, Piece.render_append, Piece.render_slots, hselect]
      simp only [Piece.render, hrender, Piece.bindings, List.length_nil, Nat.add_zero,
        String.append_assoc, String.append_empty]
    · rw [Piece.bindings_append, Piece.bindings_append, Piece.bindings_slots]
      simp [Piece.bindings, hbindings]
  · rw [Piece.firstFlaw?_append, Piece.firstFlaw?_append, Piece.firstFlaw?_slots]
    simpa [Piece.firstFlaw?] using hsound

/-! ### What is attached -/

/-- A record as it comes from a row of a model: stored, with the row as its attributes and as its
baseline. It differs from the row only where a value differs from itself. -/
structure Fresh (m : Model) (row : Row) (r : Record) : Prop where
  table : r.table = m.table
  primaryKey : r.primaryKey = m.primaryKey
  hidden : r.hidden = m.hidden
  visible : r.visible = m.visible
  attributes : r.attributes = row
  baseline : r.baseline = row
  stored : r.stored = true
  relations : r.relations = []
  clean : r.isDirty = true ↔ ∃ e ∈ row.entries, e.2.same e.2 = false

theorem fresh_record (row : Row) :
    m.Fresh row ((m.related kind column localKey).record row) where
  table := rfl
  primaryKey := rfl
  hidden := rfl
  visible := rfl
  attributes := rfl
  baseline := rfl
  stored := rfl
  relations := rfl
  clean := by
    rw [Record.isDirty_iff_differsFrom]
    refine exists_congr fun e => and_congr_right fun he => ?_
    have hget : row.get? e.1 = some e.2 := get?_of_mem_entries he
    show (row.get? e.1).all (fun o => !e.2.same o) = true ↔ _
    rw [hget, Option.all_some, Bool.not_eq_true']

/-- The value of a record that related rows must have, if it is not null. -/
def valueOf (localKey : Option String) (p : Record) : Option Value :=
  (p.get? (localKey.getD p.primaryKey)).filter fun v => !v.isNull

/-- The rows that belong to a record: those with a value that is not null and has the same plain
text as the value of the record. Without a value no row does. -/
def rowsOf (column : String) (localKey : Option String) (p : Record) (rows : List Row) :
    List Row :=
  match valueOf localKey p with
  | some k => rows.filter fun row =>
    (row.get? column).any fun v => !v.isNull && v.plain == k.plain
  | none => []

/-- A record with relations to its rows attached under a name, and nothing else changed. -/
structure Attached (m : Model) (kind : RelationKind) (column : String) (localKey : Option String)
    (name : String) (rows : List Row) (p r : Record) : Prop where
  same : { r with relations := p.relations } = p
  others : ∀ other, other ≠ name → r.relation? other = p.relation? other
  attached : ∃ records, List.Forall₂ m.Fresh (rowsOf column localKey p rows) records ∧
    r.relation? name = some (match kind with
      | .hasMany => .many records
      | .hasOne | .belongsTo => .one records.head?)

/-- The records that a relation attaches are those of the rows. -/
theorem matching_related (p : Record) (rows : List Row) :
    (m.related kind column localKey).matching p rows =
      (rowsOf column localKey p rows).map (m.related kind column localKey).record := by
  have hvalue : (m.related kind column localKey).localValue? p = valueOf localKey p := rfl
  rw [Relation.matching, rowsOf, hvalue]
  cases valueOf localKey p with
  | none => rfl
  | some k =>
    refine congrArg (List.map _) (List.filter_congr fun row _ => ?_)
    show ((row.get? column).filter fun v => !v.isNull).any (fun v => v.plain == k.plain) = _
    cases row.get? column with
    | none => rfl
    | some v => cases hnull : v.isNull <;> simp [hnull]

/-- **What attaching changes.** The parent has the records of its rows under the name, in their
order, and is else as it was. -/
theorem attached_setRelation (name : String) (p : Record) (rows : List Row) :
    m.Attached kind column localKey name rows p
      (p.setRelation name ((m.related kind column localKey).related p rows)) where
  same := by cases p; rfl
  others := by
    intro other hother
    rw [Record.relation?, Record.setRelation, Pairs.get?_put, if_neg hother.symm]
    rfl
  attached := by
    refine ⟨(rowsOf column localKey p rows).map (m.related kind column localKey).record, ?_, ?_⟩
    · rw [List.forall₂_map_right_iff]
      exact List.forall₂_same.2 fun row _ => m.fresh_record kind column localKey row
    · rw [Record.relation?, Record.setRelation, Pairs.get?_put, if_pos rfl, Relation.related,
        matching_related]
      cases kind <;> rfl

end Model

namespace Script

variable {υ : Type}

/-- **A query for rows is one request** over a scripted connection, and its reply is its result. -/
theorem from_get (driver name : String) (d : Dialect) (scope : Except Fault (Option String))
    {q : Query} {s : Statement} (h : q.selectStatement d = .ok s) (st : Script υ) :
    ∃ st' : Script υ, st'.log = st.log ++ [request name s] ∧
      (q.get (connection driver d name scope)).from_ st =
        ((st.reply name).map Output.rows, st') := by
  let noted : Script υ := note (.dispatching .select s.sql) st
  have hreply : noted.reply name = st.reply name := rfl
  have hnoted : (connection driver d name scope).observe (.dispatching .select s.sql) st = noted :=
    rfl
  have hget : (q.get (connection driver d name scope)).from_ st =
      ((connection driver d name scope).dispatch .select s
        ((adapter driver d name).rows s)).from_ st := by
    have hdialect : (connection driver d name scope : Connection (Script υ)).dialect = d := rfl
    rw [Query.get, hdialect, h, Action.from_bind]
    rfl
  rw [hget, Connection.from_dispatch, hnoted, from_rows, hreply]
  cases st.reply name with
  | ok out => exact ⟨_, rfl, rfl⟩
  | error cause => exact ⟨_, rfl, rfl⟩

end Script

namespace Model

/-- **What loading a relation does.** Without a value among the parents it asks nothing, and every
parent has nothing attached. Else it asks one statement for the rows of the values, each where it
is first seen; no two of them are equal. On a fault every parent is as it was. With rows, every
parent has its own attached, in the order of the reply, and is else as it was. The loader of the
relation gives the parents behind this, or the fault. -/
theorem load_attaches {υ : Type} (driver adapter : String) (d : Dialect)
    (scope : Except Fault (Option String)) (m : Model) (kind : RelationKind) (column : String)
    (localKey : Option String) (name : String) (parents : List Record) (st : Script υ) :
    let rel := m.related kind column localKey
    let c : Connection (Script υ) := Script.connection driver d adapter scope
    let values := parents.filterMap (valueOf localKey)
    let after := (rel.load c name parents).run st
    (if values.isEmpty then
      after.2 = st ∧ after.1.1 = .ok () ∧
        List.Forall₂ (m.Attached kind column localKey name []) parents after.1.2
    else
      after.2.log =
        st.log ++ [Script.request adapter (m.lookup d column (Relation.firstSeen values))] ∧
      ((Relation.firstSeen values).Pairwise fun earlier later => later.same earlier = false) ∧
      match st.reply adapter with
      | .error cause => after.1.1 = .error cause ∧ after.1.2 = parents
      | .ok out => after.1.1 = .ok () ∧
        List.Forall₂ (m.Attached kind column localKey name out.rows) parents after.1.2) ∧
    (rel.loader c name parents).from_ st = (after.1.1.map fun () => after.1.2, after.2) := by
  intro rel c values after
  have hkeys : rel.localValues parents = Relation.firstSeen values :=
    Relation.distinctValues_eq values
  have hattached : ∀ rows, List.Forall₂ (m.Attached kind column localKey name rows) parents
      (parents.map fun p => p.setRelation name (rel.related p rows)) := by
    intro rows
    rw [List.forall₂_map_right_iff]
    exact List.forall₂_same.2 fun p _ => m.attached_setRelation kind column localKey name p rows
  have hafter := rel.run_load c name parents st
  rw [Relation.relatedRows, hkeys] at hafter
  refine ⟨?_, rel.from_loader c name parents st⟩
  by_cases hnone : values = []
  · have hempty : Relation.firstSeen values = [] := (Relation.firstSeen_eq_nil_iff values).2 hnone
    rw [hempty] at hafter
    rw [if_pos (List.isEmpty_iff.2 hnone), show after = _ from hafter]
    exact ⟨rfl, rfl, hattached []⟩
  · have hsome : Relation.firstSeen values ≠ [] := fun h =>
      hnone ((Relation.firstSeen_eq_nil_iff values).1 h)
    obtain ⟨st', hlog, hget⟩ := Script.from_get driver adapter d scope
      (m.selectStatement_query kind column localKey d hsome) st
    rw [if_neg (mt List.isEmpty_iff.1 hsome), hget] at hafter
    have hpairwise := Relation.pairwise_firstSeen values
    rw [if_neg (mt List.isEmpty_iff.1 hnone), show after = _ from hafter]
    cases st.reply adapter with
    | error cause => exact ⟨hlog, hpairwise, rfl, rfl⟩
    | ok out => exact ⟨hlog, hpairwise, rfl, hattached out.rows⟩

/-- **A row with a NaN** is attached as a record that has a pending change. -/
theorem load_attaches_dirty :
    let users : Model := { table := "users" }
    let posts : Model := { table := "posts" }
    let row : Row := .ofList [("id", .int 7), ("user_id", .int 1),
      ("score", .float ⟨0x7ff8000000000000⟩)]
    let parent := users.hydrate (.ofList [("id", .int 1)])
    let st := (Script.start ()).prepare "main" [.ok (.ofRows [row])]
    let after := ((posts.related .hasMany "user_id" none).load
      (Script.connection "postgres" .postgres "main" (.ok none)) "posts" [parent]).run st
    after.1.1 = .ok () ∧ ∃ r : Record,
      after.1.2.map (·.relation? "posts") = [some (.many [r])] ∧ r.attributes = row ∧
        r.isDirty = true := by
  intro users posts row parent st after
  exact ⟨rfl, (posts.related .hasMany "user_id" none).record row, rfl, rfl, rfl⟩

end Model

end ActiveRow
