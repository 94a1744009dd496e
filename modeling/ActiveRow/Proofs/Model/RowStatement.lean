import ActiveRow.Proofs.Model.Change
import ActiveRow.Proofs.Plan

/-!
# Statements about one row

A record is written to its row by statements that test the key column of the model's table against
one value. They are spelled out here, with the values that they bind.

* `updateStatement_rowQuery`: the statement that sets columns of the row of a key.
* `deleteStatement_rowQuery`: the statement that removes the row.
* `Script.sentOne_update`, `Script.sentOne_delete`: over a scripted connection an operation of one
  such statement is one request, and ends as the reply to it says.
-/

namespace ActiveRow

/-- Columns set to places, the first of which comes behind `used` others. -/
def settings (style : Placeholder) : Nat → List String → List String
  | _, [] => []
  | used, column :: rest =>
    (column ++ " = " ++ style.mark (used + 1)) :: settings style (used + 1) rest

namespace Model

/-- The statement that sets columns of the row of a key. -/
def rowUpdate (m : Model) (d : Dialect) (key : Value) (values : List (String × Value)) :
    Statement where
  sql := "UPDATE " ++ m.table ++ " SET " ++
    String.intercalate ", " (settings d.placeholder 0 (Pairs.keys values)) ++
    " WHERE " ++ m.primaryKey ++ " = " ++ d.placeholder.mark (values.length + 1)
  bindings := values.map Prod.snd ++ [key]

/-- The statement that removes the row of a key. -/
def rowDeletion (m : Model) (d : Dialect) (key : Value) : Statement where
  sql := "DELETE FROM " ++ m.table ++ " WHERE " ++ m.primaryKey ++ " = " ++ d.placeholder.mark 1
  bindings := [key]

/-! ### The test of the key -/

/-- The tests that a statement about the row of a key has. -/
theorem wheres_rowQuery (m : Model) (key : Value) :
    m.rowQuery key =
      { Query.on m.table with
        wheres := [.test .and (.compare m.primaryKey "=" (.value key))] } := by
  have hv : Operator.isValid "=" = true := by decide
  simp [rowQuery, Query.whereEq, Query.filter, Query.checkTest, Test.operator?, Query.check, hv,
    Query.on]

/-- How the tests of a statement about the row of a known key are written. -/
theorem listPieces_rowQuery (m : Model) {key : Value} (hk : key.isNull = false) :
    Clause.listPieces " WHERE " (m.rowQuery key).wheres =
      [.text " WHERE ", .text m.primaryKey, .text " ", .text "=", .text " ", .slot key] := by
  have hw : Operator.written "=" = "=" := by decide
  simp [wheres_rowQuery, Clause.listPieces, Clause.areVacant, Clause.isVacant, Clause.listTokens,
    Clause.tokens, Token.pieces, Test.pieces, Operand.isNull, Operand.pieces, hk, hw]

/-- The text of the test, behind places that are used before it. -/
theorem render_keyTest (m : Model) (style : Placeholder) (used : Nat) (key : Value) :
    Piece.render style used
      [.text " WHERE ", .text m.primaryKey, .text " ", .text "=", .text " ", .slot key] =
      " WHERE " ++ m.primaryKey ++ " = " ++ style.mark (used + 1) := by
  have heq : " = " = " " ++ ("=" ++ " ") := by decide
  simp only [Piece.render, heq, String.append_assoc, String.append_empty]

/-! ### The assignments -/

theorem assignmentPieces_value (column : String) (v : Value) :
    Query.assignmentPieces (column, .value v) = [.text column, .text " = ", .slot v] := rfl

theorem bindings_assignments (values : List (String × Value)) :
    ((assignments values).map Query.assignmentPieces).flatMap Piece.bindings =
      values.map Prod.snd := by
  induction values with
  | nil => rfl
  | cons e values ih =>
    simp only [assignments, List.map_cons, List.flatMap_cons] at ih ⊢
    rw [ih]
    rfl

/-- The places of assignments are numbered on, and their columns stand in order. -/
theorem render_assignments (style : Placeholder) (values : List (String × Value)) : ∀ used,
    Piece.render style used
      (Piece.separated ", " ((assignments values).map Query.assignmentPieces)) =
      String.intercalate ", " (settings style used (Pairs.keys values)) := by
  have heach : ∀ used,
      Piece.renderEach style used ((assignments values).map Query.assignmentPieces) =
        settings style used (Pairs.keys values) := by
    induction values with
    | nil => intro used; rfl
    | cons e values ih =>
      intro used
      have hrest : Piece.renderEach style (used + 1)
          ((assignments values).map Query.assignmentPieces) =
            settings style (used + 1) (Pairs.keys values) := ih (used + 1)
      rw [Pairs.keys_cons, settings, ← hrest]
      simp [assignments, Piece.renderEach, assignmentPieces_value, Piece.render, Piece.bindings,
        String.append_assoc]
  intro used
  rw [Piece.render_separated, heach]

theorem firstFlaw?_assignments (values : List (String × Value)) :
    Piece.firstFlaw? (Piece.separated ", " ((assignments values).map Query.assignmentPieces)) =
      none := by
  rw [Piece.firstFlaw?_separated, List.findSome?_eq_none_iff]
  intro p hp
  obtain ⟨a, ha, rfl⟩ := List.mem_map.1 hp
  obtain ⟨e, -, rfl⟩ := List.mem_map.1 ha
  rfl

/-! ### The statements -/

variable (m : Model) (d : Dialect) {key : Value}

theorem finish_updatePieces (hk : key.isNull = false) (values : List (String × Value)) :
    Piece.finish d.placeholder ((m.rowQuery key).updatePieces m.table (assignments values)) =
      .ok (m.rowUpdate d key values) := by
  have hbindings : Piece.bindings
      (Piece.separated ", " ((assignments values).map Query.assignmentPieces)) =
        values.map Prod.snd := by
    rw [Piece.bindings_separated, bindings_assignments]
  rw [Query.updatePieces, listPieces_rowQuery m hk, Piece.finish_of_sound]
  · change Except.ok (Statement.mk _ _) = Except.ok (Statement.mk _ _)
    congr 2
    · rw [Piece.render_append, Piece.render_append, render_assignments, render_keyTest]
      simp [Piece.render, hbindings, Piece.bindings, String.append_assoc]
    · simp [Piece.bindings_append, hbindings, Piece.bindings]
  · rw [Piece.firstFlaw?_append, Piece.firstFlaw?_append, firstFlaw?_assignments]
    rfl

/-- **The statement that sets columns of a row**, if there are any to set. -/
theorem updateStatement_rowQuery (hk : key.isNull = false) (values : List (String × Value)) :
    (m.rowQuery key).updateStatement d (assignments values) =
      if values.isEmpty then .error (.validation .emptyUpdate)
      else .ok (m.rowUpdate d key values) := by
  have hsteps := (Form.update (assignments values)).statement_eq d (m.rowQuery key)
  have hcheck : (Form.update (assignments values)).check (m.rowQuery key) =
      if values.isEmpty then .error (.validation .emptyUpdate) else .ok m.table := by
    rw [wheres_rowQuery]
    cases values <;> rfl
  rw [hcheck] at hsteps
  cases values with
  | nil => exact hsteps
  | cons e values => exact hsteps.trans (m.finish_updatePieces d hk (e :: values))

/-- **The statement that removes a row.** -/
theorem deleteStatement_rowQuery (hk : key.isNull = false) :
    (m.rowQuery key).deleteStatement d = .ok (m.rowDeletion d key) := by
  have hsteps := Form.delete.statement_eq d (m.rowQuery key)
  have hcheck : Form.delete.check (m.rowQuery key) = .ok m.table := by
    rw [wheres_rowQuery]
    rfl
  rw [hcheck] at hsteps
  have hfinish : Piece.finish d.placeholder ((m.rowQuery key).deletePieces m.table) =
      .ok (m.rowDeletion d key) := by
    rw [Query.deletePieces, listPieces_rowQuery m hk, Piece.finish_of_sound]
    · change Except.ok (Statement.mk _ _) = Except.ok (Statement.mk _ _)
      congr 2
      rw [Piece.render_append, render_keyTest]
      simp [Piece.render, Piece.bindings, String.append_assoc]
    · rfl
  exact hsteps.trans hfinish

/-! ### Sending them -/

variable {σ : Type} (c : Connection σ)

theorem update_rowQuery (hk : key.isNull = false) {values : List (String × Value)}
    (hne : values ≠ []) :
    (m.rowQuery key).update c (assignments values) =
      c.update (m.rowUpdate c.dialect key values) := by
  have hsome : values.isEmpty = false := by simpa using hne
  rw [Query.update, m.updateStatement_rowQuery c.dialect hk, hsome]
  rfl

theorem delete_rowQuery (hk : key.isNull = false) :
    (m.rowQuery key).delete c = c.delete (m.rowDeletion c.dialect key) := by
  rw [Query.delete, m.deleteStatement_rowQuery c.dialect hk]
  rfl

end Model

namespace Outcome

variable {σ α β : Type}

/-- What an action gives does not matter to an operation that does not look at it. -/
theorem ofAction_discard (r : Record) (a : Action σ β) (done : Unit → Outcome α) :
    ofAction r (discard a) done = ofAction r a fun _ => done () := by
  funext st
  change (ofAction r (discard a) done).run st = (ofAction r a fun _ => done ()).run st
  have hbind : (discard a : Action σ PUnit) = a >>= fun _ => pure () := rfl
  rw [run_ofAction, run_ofAction, hbind, Action.from_bind]
  rcases a.from_ st with ⟨x, st'⟩
  cases x <;> rfl

end Outcome

namespace Model

variable {σ α β : Type} (m : Model)

theorem requireKey_of_knownKey? {r : Record} {key : Value} (hkey : r.knownKey? = some key) :
    m.requireKey r = .ok key := by
  rw [requireKey, hkey]

/-- An operation on the row of a record's key ends at once when there is none. -/
theorem ofAction_requireKey (r r' : Record) (row : Value → Action σ β) (done : β → Outcome α) :
    Outcome.ofAction r (do let key ← .ofExcept (m.requireKey r'); row key) done =
      match r'.knownKey? with
      | some key => Outcome.ofAction r (row key) done
      | none => pure ⟨r, .error (.validation (.keyless m.table m.primaryKey))⟩ := by
  funext st
  cases hk : r'.knownKey? with
  | some key =>
    rw [m.requireKey_of_knownKey? hk]
    rfl
  | none =>
    rw [requireKey, hk]
    rfl

end Model

namespace Script

variable {υ α : Type}

/-- **A statement that changes rows is one request** over a scripted connection, and its reply is
its result. -/
theorem from_change_dispatch (driver name : String) (d : Dialect)
    (scope : Except Fault (Option String)) (kind : StatementKind) (s : Statement) (st : Script υ) :
    ∃ st' : Script υ, st'.log = st.log ++ [request name s] ∧
      ((connection driver d name scope).dispatch kind s
        ((adapter driver d name).change s)).from_ st = ((st.reply name).map Output.count, st') := by
  let noted : Script υ := note (.dispatching kind s.sql) st
  have hreply : noted.reply name = st.reply name := rfl
  have hnoted : (connection driver d name scope).observe (.dispatching kind s.sql) st = noted := rfl
  rw [Connection.from_dispatch, hnoted, from_change, hreply]
  cases st.reply name with
  | ok out => exact ⟨_, rfl, rfl⟩
  | error cause => exact ⟨_, rfl, rfl⟩

variable {driver name : String} {d : Dialect} {scope : Except Fault (Option String)}
  (s : Statement) (r : Record) (done : UInt64 → Outcome α) (st : Script υ)

/-- How an operation of one statement ended, over a scripted connection: the statement is sent, and
the reply to it decides. -/
structure SentOne (name : String) (after : Outcome α × Script υ) : Prop where
  log : after.2.log = st.log ++ [request name s]
  ended : after.1 = match st.reply name with
    | .ok out => done out.count
    | .error cause => ⟨r, .error cause⟩

theorem sentOne_dispatch (kind : StatementKind) :
    SentOne s r done st name ((Outcome.ofAction r
      ((connection driver d name scope).dispatch kind s
        ((adapter driver d name).change s)) done).run st) := by
  obtain ⟨st', hlog, hfrom⟩ := from_change_dispatch driver name d scope kind s st
  rw [Outcome.run_ofAction, hfrom]
  cases hreply : st.reply name with
  | ok out => exact ⟨hlog, by rw [hreply]; rfl⟩
  | error cause => exact ⟨hlog, by rw [hreply]; rfl⟩

/-- **An operation of one update** sends it, and ends as its reply says. -/
theorem sentOne_update : SentOne s r done st name
    ((Outcome.ofAction r ((connection driver d name scope).update s) done).run st) :=
  sentOne_dispatch s r done st .update

/-- **An operation of one deletion** sends it, and ends as its reply says. -/
theorem sentOne_delete : SentOne s r done st name
    ((Outcome.ofAction r ((connection driver d name scope).delete s) done).run st) :=
  sentOne_dispatch s r done st .delete

/-- What an operation sends that is one statement about the row of a key, and nothing without a
key. -/
theorem log_keyed {operation : Value → StateM (Script υ) (Outcome α)}
    {statement : Value → Statement} (key? : Option Value) (keyless : Outcome α)
    (h : ∀ key st, ((operation key).run st).2.log = st.log ++ [request name (statement key)])
    (st : Script υ) :
    (StateT.run (match key? with
      | some key => operation key
      | none => pure keyless) st).2.log =
        st.log ++ (key?.map statement).toList.map (request name) := by
  cases key? with
  | some key => exact h key st
  | none => exact (List.append_nil _).symm

end Script

end ActiveRow
