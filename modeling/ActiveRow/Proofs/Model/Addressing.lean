import ActiveRow.Proofs.Model.Saving

/-!
# The row that a record is written to

A record that was read from a row can be edited, its key too, before it is saved or deleted. The
statement then names a row by the key which the record has at that moment, and not by the key of
the row it was read from. So the two are the same row as long as the key was not edited. A record
with another key is written to the row of that key, if there is one.

* `Edit.changesOnly_run`: edits change nothing but the attributes that they name.
* `Write.log_after`: the statement of a call.
* `Write.names_iff`: when it names the row that the record was read from.
-/

namespace ActiveRow

/-! ### Edits -/

/-- An edit of the attributes of a record. -/
inductive Edit where
  | set (key : String) (v : Value)
  | fill (pairs : List (String × Value))

namespace Edit

/-- The columns that an edit writes. -/
def columns : Edit → List String
  | set key _ => [key]
  | fill pairs => Pairs.keys pairs

def apply (m : Model) (r : Record) : Edit → Record
  | set key v => m.set r key v
  | fill pairs => m.fill r pairs

/-- The record after edits. -/
def run (m : Model) (edits : List Edit) (r : Record) : Record := edits.foldl (apply m) r

end Edit

theorem Model.changesOnly_fill (m : Model) (pairs : List (String × Value)) : ∀ r : Record,
    r.ChangesOnly (Pairs.keys pairs) (m.fill r pairs) := by
  induction pairs with
  | nil => exact fun r => .refl _ r
  | cons e pairs ih => exact fun r => (Record.ChangesOnly.set r e.1 _).trans (ih (m.set r e.1 e.2))

namespace Edit

variable (m : Model)

theorem changesOnly_apply (r : Record) (e : Edit) : r.ChangesOnly e.columns (e.apply m r) := by
  cases e with
  | set key v => exact .set r key _
  | fill pairs => exact m.changesOnly_fill pairs r

/-- **Edits change only attributes**, and of these the ones that they name. -/
theorem changesOnly_run (edits : List Edit) : ∀ r : Record,
    r.ChangesOnly (edits.flatMap columns) (run m edits r) := by
  induction edits with
  | nil => exact fun r => .refl _ r
  | cons e edits ih => exact fun r => (changesOnly_apply m r e).trans (ih (e.apply m r))

end Edit

/-! ### Naming a row -/

/-- A statement that sets columns of the row of a key, or removes it. -/
inductive Model.Names (m : Model) (d : Dialect) (key : Value) : Statement → Prop where
  | update (values : List (String × Value)) : Names m d key (m.rowUpdate d key values)
  | delete : Names m d key (m.rowDeletion d key)

namespace Model.Names

variable {m : Model} {d : Dialect} {key key' : Value} {s : Statement}

theorem getLast?_bindings (h : m.Names d key s) : s.bindings.getLast? = some key := by
  cases h with
  | update values => exact List.getLast?_concat
  | delete => rfl

/-- A statement names one row. -/
theorem key_eq (h : m.Names d key s) (h' : m.Names d key' s) : key = key' :=
  Option.some.inj (h.getLast?_bindings.symm.trans h'.getLast?_bindings)

end Model.Names

/-! ### Writing -/

/-- A call that writes to the row of a record. Times are taken from `now`. -/
inductive Write where
  | save (now : Timestamp)
  | delete (now : Timestamp)
  | forceDelete

namespace Write

/-- The state of the connection after a call. -/
def after {σ : Type} (m : Model) (c : Connection σ) (r : Record) (st : σ) : Write → σ
  | save now => ((m.save c now r).run st).2
  | delete now => ((m.delete c now r).run st).2
  | forceDelete => ((m.forceDelete c r).run st).2

/-- The key by which a call names a row, unless the record has none. -/
def key? (m : Model) (r : Record) : Write → Option Value
  | save now => (m.touched now r).knownKey?
  | delete _ | forceDelete => r.knownKey?

/-- What a call writes to the row of a key, if there is anything to write. -/
def statement? (m : Model) (d : Dialect) (r : Record) (key : Value) : Write → Option Statement
  | save now =>
    if r.isDirty then some (m.rowUpdate d key (m.touched now r).dirty.entries) else none
  | delete now =>
    some (if m.softDeletes then m.rowUpdate d key (m.deletionMarks now) else m.rowDeletion d key)
  | forceDelete => some (m.rowDeletion d key)

/-- The statement that a call sends for a stored record, if it sends one. -/
def sent? (m : Model) (d : Dialect) (r : Record) (w : Write) : Option Statement :=
  (w.key? m r).bind fun key => w.statement? m d r key

variable {m : Model} {d : Dialect} {r : Record} {key : Value}

theorem names_statement? {w : Write} {s : Statement} (h : w.statement? m d r key = some s) :
    m.Names d key s := by
  cases w with
  | save now =>
    obtain ⟨-, hs⟩ := Option.ite_none_right_eq_some.1 h
    obtain rfl := Option.some.inj hs
    exact .update _
  | delete now =>
    obtain rfl := Option.some.inj h
    split
    · exact .update _
    · exact .delete
  | forceDelete =>
    obtain rfl := Option.some.inj h
    exact .delete

/-- **The row that a call names** is the one of a key exactly when this is the key it takes. -/
theorem names_iff (w : Write) :
    (∀ s ∈ w.sent? m d r, m.Names d key s) ↔ w.sent? m d r = none ∨ w.key? m r = some key := by
  constructor
  · intro hall
    rcases hs : w.sent? m d r with _ | s
    · exact .inl rfl
    · obtain ⟨named, hnamed, hstatement⟩ := Option.bind_eq_some_iff.1 hs
      obtain rfl := (names_statement? hstatement).key_eq (hall s hs)
      exact .inr hnamed
  · rintro (hnone | hkey) s hs
    · rw [hnone] at hs
      cases hs
    · rw [Option.mem_def, sent?, hkey] at hs
      exact names_statement? hs

end Write

/-! ### What a call sends -/

namespace Model

variable {σ : Type} {m : Model}

theorem delete_eq_forceDelete {c : Connection σ} {now : Timestamp} {r : Record}
    (hr : r.stored = true) (hs : m.softDeletes = false) : m.delete c now r = m.forceDelete c r := by
  rw [delete, hr, hs]
  rfl

/-- Marking a row as deleted is one statement. -/
theorem delete_eq_ofAction {c : Connection σ} {now : Timestamp} {r : Record}
    (hr : r.stored = true) (hs : m.softDeletes = true) :
    m.delete c now r =
      match r.knownKey? with
      | some key =>
        Outcome.ofAction r (c.update (m.rowUpdate c.dialect key (m.deletionMarks now)))
          fun n => ⟨(r.fill (m.deletionMarks now)).markClean, .ok (decide (n > 0))⟩
      | none => pure ⟨r, .error (.validation (.keyless m.table m.primaryKey))⟩ := by
  have hsteps : m.delete c now r =
      Outcome.ofAction r
        (do
          let key ← .ofExcept (m.requireKey r)
          (m.rowQuery key).update c (assignments (m.deletionMarks now)))
        fun n => ⟨(r.fill (m.deletionMarks now)).markClean, .ok (decide (n > 0))⟩ := by
    rw [delete, hr, hs]
    rfl
  rw [hsteps, m.ofAction_requireKey]
  cases hk : r.knownKey? with
  | some key =>
    have hne : m.deletionMarks now ≠ [] := List.cons_ne_nil _ _
    simp only
    rw [m.update_rowQuery c (isNull_of_knownKey? hk) hne]
  | none => rfl

/-- Removing a row is one statement. -/
theorem forceDelete_eq_ofAction {c : Connection σ} {r : Record} (hr : r.stored = true) :
    m.forceDelete c r =
      match r.knownKey? with
      | some key =>
        Outcome.ofAction r (c.delete (m.rowDeletion c.dialect key))
          fun n => ⟨r.setStored false, .ok (decide (n > 0))⟩
      | none => pure ⟨r, .error (.validation (.keyless m.table m.primaryKey))⟩ := by
  rw [forceDelete, if_pos hr, m.ofAction_requireKey]
  cases hk : r.knownKey? with
  | some key =>
    simp only
    rw [m.delete_rowQuery c (isNull_of_knownKey? hk)]
  | none => rfl

end Model

namespace Write

variable {υ : Type} {m : Model} {driver name : String} {d : Dialect}
  {scope : Except Fault (Option String)} {r : Record}

theorem log_save (now : Timestamp) (hr : r.stored = true) (st : Script υ) :
    ((save now).after m (Script.connection driver d name scope) r st).log =
      st.log ++ ((save now).sent? m d r).toList.map (Script.request name) := by
  let c : Connection (Script υ) := Script.connection driver d name scope
  have hsave : m.save c now r = m.update c now r := if_pos hr
  change ((m.save c now r).run st).2.log = _
  rw [hsave]
  cases hd : r.isDirty with
  | false =>
    have hnone : (save now).sent? m d r = none := by
      simp [sent?, statement?, hd]
    rw [Model.update_eq_pure hd, hnone]
    exact (List.append_nil _).symm
  | true =>
    have hsome : (save now).sent? m d r = (m.touched now r).knownKey?.map fun key =>
        m.rowUpdate d key (m.touched now r).dirty.entries := by
      rw [sent?, Option.map_eq_bind]
      simp only [statement?, hd]
      rfl
    rw [Model.update_eq_ofAction hd, hsome]
    exact Script.log_keyed _ _ (fun key st => (Script.sentOne_update _ _ _ st).log) st

theorem log_forceDelete (hr : r.stored = true) (st : Script υ) :
    (forceDelete.after m (Script.connection driver d name scope) r st).log =
      st.log ++ (forceDelete.sent? m d r).toList.map (Script.request name) := by
  have hsome : forceDelete.sent? m d r = r.knownKey?.map (m.rowDeletion d) :=
    (Option.map_eq_bind ..).symm
  rw [after, Model.forceDelete_eq_ofAction hr, hsome]
  exact Script.log_keyed _ _ (fun key st => (Script.sentOne_delete _ _ _ st).log) st

theorem log_delete (now : Timestamp) (hr : r.stored = true) (st : Script υ) :
    ((delete now).after m (Script.connection driver d name scope) r st).log =
      st.log ++ ((delete now).sent? m d r).toList.map (Script.request name) := by
  cases hs : m.softDeletes with
  | false =>
    have hsame : (delete now).sent? m d r = forceDelete.sent? m d r := by
      rw [sent?, sent?]
      simp only [statement?, hs]
      rfl
    rw [after, Model.delete_eq_forceDelete hr hs, hsame]
    exact log_forceDelete hr st
  | true =>
    have hsome : (delete now).sent? m d r =
        r.knownKey?.map fun key => m.rowUpdate d key (m.deletionMarks now) := by
      rw [sent?, Option.map_eq_bind]
      simp only [statement?, hs]
      rfl
    rw [after, Model.delete_eq_ofAction hr hs, hsome]
    exact Script.log_keyed _ _ (fun key st => (Script.sentOne_update _ _ _ st).log) st

/-- **What a call sends** for a stored record, over a scripted connection. -/
theorem log_after (w : Write) (hr : r.stored = true) (st : Script υ) :
    (w.after m (Script.connection driver d name scope) r st).log =
      st.log ++ (w.sent? m d r).toList.map (Script.request name) := by
  cases w with
  | save now => exact log_save now hr st
  | delete now => exact log_delete now hr st
  | forceDelete => exact log_forceDelete hr st

/-- A known key is the one by which a call names the row, unless it is in the column of times. -/
theorem key?_eq {key : Value} (w : Write) (hkey : r.knownKey? = some key)
    (hcolumn : m.updatedAt ≠ r.primaryKey) : w.key? m r = some key := by
  cases w with
  | save now =>
    obtain ⟨rowKey, hrow, hsame⟩ := m.knownKey?_touched now hkey
    rw [key?, hrow, hsame hcolumn]
  | delete now => exact hkey
  | forceDelete => exact hkey

end Write

/-- **The row that an edited record is written to.** A record is read from a row with a key, edited,
and saved, deleted or removed. The call sends the statement spelled out by `Write.sent?`, which
names a row by the key that the record has after the edits, its value in the key column unless that
is the column of times. So it names the row that the record was read from exactly when the record
still has this key, or when nothing is sent. Edits that leave the key column alone keep the key. -/
theorem writes_current_key {υ : Type} {m : Model} {driver name : String} {d : Dialect}
    {scope : Except Fault (Option String)} {row : Row} {key : Value}
    (hkey : row.get? m.primaryKey = some key) (hnull : key.isNull = false) (edits : List Edit)
    (w : Write) (st : Script υ) :
    let r := Edit.run m edits (m.hydrate row)
    let after := w.after m (Script.connection driver d name scope) r st
    r.baseline = row ∧
    after.log = st.log ++ (w.sent? m d r).toList.map (Script.request name) ∧
    (∀ s ∈ w.sent? m d r, ∃ current, w.key? m r = some current ∧ m.Names d current s) ∧
    ((∀ s ∈ w.sent? m d r, m.Names d key s) ↔ w.sent? m d r = none ∨ w.key? m r = some key) ∧
    (∀ current, r.get? m.primaryKey = some current → current.isNull = false →
      m.updatedAt ≠ m.primaryKey → w.key? m r = some current) ∧
    (m.primaryKey ∉ edits.flatMap Edit.columns → m.updatedAt ≠ m.primaryKey →
      w.key? m r = some key) := by
  intro r after
  have hedits : (m.hydrate row).ChangesOnly (edits.flatMap Edit.columns) r :=
    Edit.changesOnly_run m edits _
  have hstored : r.stored = true := by
    rw [← hedits.frame]
    rfl
  have hbaseline : r.baseline = row := by
    rw [← hedits.frame]
    rfl
  have hcolumn : r.primaryKey = m.primaryKey := by
    rw [← hedits.frame]
    rfl
  have hlive : ∀ current, r.get? m.primaryKey = some current → current.isNull = false →
      m.updatedAt ≠ m.primaryKey → w.key? m r = some current := by
    intro current hcurrent hknown htimes
    have hlast : r.knownKey? = some current := by
      rw [Record.knownKey?, Record.key?, hcolumn]
      exact Option.filter_eq_some_iff.2 ⟨hcurrent, by simpa using hknown⟩
    exact w.key?_eq hlast (by rwa [hcolumn])
  refine ⟨hbaseline, w.log_after hstored st, fun s hs => ?_, w.names_iff, hlive, fun hedit => ?_⟩
  · obtain ⟨current, hcurrent, hstatement⟩ := Option.bind_eq_some_iff.1 hs
    exact ⟨current, hcurrent, Write.names_statement? hstatement⟩
  · have hkept : r.get? m.primaryKey = some key := (hedits.get?_eq hedit).trans hkey
    exact hlive key hkept hnull

/-! ### A key that is edited -/

def users : Model := { table := "users" }

/-- The row of a user. -/
def userRow : Row := .ofList [("id", .int 1), ("name", .text "a")]

/-- A renamed user is saved to its row. -/
theorem writes_current_key_renamed :
    let r := Edit.run users [.set "name" (.text "b")] (users.hydrate userRow)
    let c : Connection (Script Unit) := Script.connection "postgres" .postgres "main" (.ok none)
    let after := (Write.save default).after users c r (Script.start ())
    userRow.get? users.primaryKey = some (.int 1) ∧ (Value.int 1).isNull = false ∧
      after.log = [⟨"main", "UPDATE users SET name = $1 WHERE id = $2", [.text "b", .int 1]⟩] ∧
      ∀ s ∈ (Write.save default).sent? users .postgres r, users.Names .postgres (.int 1) s := by
  intro r c after
  have hkey : userRow.get? users.primaryKey = some (.int 1) := rfl
  obtain ⟨-, hlog, -, hnames, -, hkept⟩ :=
    @writes_current_key Unit users "postgres" "main" .postgres (.ok none) userRow (.int 1) hkey rfl
      [.set "name" (.text "b")] (.save default) (Script.start ())
  exact ⟨hkey, rfl, hlog, hnames.2 (.inr (hkept (by decide) (by decide)))⟩

/-- A user whose key is edited is not saved to its row, and then counts as stored. -/
theorem rekeyed_not_written :
    let r := Edit.run users [.set "id" (.int 2)] (users.hydrate userRow)
    let c : Connection (Script Unit) := Script.connection "postgres" .postgres "main" (.ok none)
    let after := (users.save c default r).run (Script.start ())
    userRow.get? users.primaryKey = some (.int 1) ∧
      after.2.log = [⟨"main", "UPDATE users SET id = $1 WHERE id = $2", [.int 2, .int 2]⟩] ∧
      after.1.record.baseline.get? "id" = some (.int 2) ∧
      ∀ s, Script.request "main" s ∈ after.2.log → ¬ users.Names .postgres (.int 1) s := by
  intro r c after
  have hlog : after.2.log =
      [⟨"main", "UPDATE users SET id = $1 WHERE id = $2", [.int 2, .int 2]⟩] := rfl
  refine ⟨rfl, hlog, rfl, fun s hs hnames => ?_⟩
  rw [hlog, List.mem_singleton] at hs
  have hbindings : s.bindings = [.int 2, .int 2] := congrArg Sent.bindings hs
  have hlast := hnames.getLast?_bindings
  rw [hbindings] at hlast
  cases hlast

end ActiveRow
