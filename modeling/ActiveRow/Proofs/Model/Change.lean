import ActiveRow.Model.Storage
import ActiveRow.Proofs.Action

/-!
# Changes of a record

What a program does to a stored record of a model over a connection, one change after the other.
A run goes on as long as every change gives a result.

* `save_eq`, `delete_eq`, `restore_eq`, `refresh_eq`: what a change that gives a result did to the
  record, and which statement it sent.
* `Model.KeepsAlong`: what a store does for a run, which is to hold the row that changes name.
-/

namespace ActiveRow

/-- A change of a record. Times are taken from `now`. -/
inductive Change where
  | set (key : String) (v : Value)
  | save (now : Timestamp)
  | delete (now : Timestamp)
  | restore (now : Timestamp)
  | refresh

namespace Change

variable {σ : Type}

/-- The record and the state after an operation, if it gave a result. -/
def kept {α : Type} : Outcome α × σ → Option (Record × σ)
  | (⟨r, .ok _⟩, st) => some (r, st)
  | (⟨_, .error _⟩, _) => none

/-- The record and the state of the connection after a change. -/
def step (m : Model) (c : Connection σ) : Change → Record × σ → Option (Record × σ)
  | set key v, (r, st) => some (m.set r key v, st)
  | save now, (r, st) => kept ((m.save c now r).run st)
  | delete now, (r, st) => kept ((m.delete c now r).run st)
  | restore now, (r, st) => kept ((m.restore c now r).run st)
  | refresh, (r, st) => kept ((m.refresh c r).run st)

/-- The record and the state after changes, if all of them gave a result. -/
def run (m : Model) (c : Connection σ) : List Change → Record × σ → Option (Record × σ)
  | [], s => some s
  | change :: rest, s => (change.step m c s).bind (run m c rest)

theorem run_append (m : Model) (c : Connection σ) (a b : List Change) :
    ∀ s, run m c (a ++ b) s = (run m c a s).bind (run m c b) := by
  induction a with
  | nil => intro s; rfl
  | cons change a ih =>
    intro s
    rw [List.cons_append, run, run, Option.bind_assoc]
    exact congrArg _ (funext ih)

/-- A run with a result has one after each of its first changes. -/
theorem run_of_prefix {m : Model} {c : Connection σ} {past changes : List Change}
    {s s' : Record × σ} (hp : past <+: changes) (h : run m c changes s = some s') :
    ∃ r st, run m c past s = some (r, st) := by
  obtain ⟨rest, rfl⟩ := hp
  rw [run_append] at h
  obtain ⟨⟨r, st⟩, hr, -⟩ := Option.bind_eq_some_iff.1 h
  exact ⟨r, st, hr⟩

/-- The last change of a run. -/
theorem run_concat {m : Model} {c : Connection σ} {past : List Change} {change : Change}
    {s s' : Record × σ} (h : run m c (past ++ [change]) s = some s') :
    ∃ r st, run m c past s = some (r, st) ∧ change.step m c (r, st) = some s' := by
  rw [run_append] at h
  obtain ⟨⟨r, st⟩, hr, hstep⟩ := Option.bind_eq_some_iff.1 h
  obtain ⟨t, ht, hrest⟩ := Option.bind_eq_some_iff.1 hstep
  cases hrest
  exact ⟨r, st, hr, ht⟩

/-- The key by which the statement of a change names its row. -/
def rowKey? (m : Model) (r : Record) : Change → Option Value
  | set _ _ => none
  | save now => (m.touched now r).knownKey?
  | delete _ => r.knownKey?
  | restore now => (m.touched now (r.set m.deletedAt .null)).knownKey?
  | refresh => r.knownKey?

end Change

/-! ### What an operation did -/

section

variable {σ α β : Type}

theorem Outcome.run_ofAction (r : Record) (a : Action σ β) (done : β → Outcome α) (st : σ) :
    (ofAction r a done).run st =
      match a.from_ st with
      | (.ok b, st') => (done b, st')
      | (.error cause, st') => (⟨r, .error cause⟩, st') := by
  simp only [ofAction, StateT.run_bind, Action.from_]
  rcases (ExceptT.run a).run st with ⟨x, st'⟩
  cases x <;> rfl

/-- An action for a record gave a result when the action did and what was made of it is one. -/
theorem Change.kept_ofAction {r r' : Record} {a : Action σ β} {done : β → Outcome α} {st st' : σ}
    (h : kept ((Outcome.ofAction r a done).run st) = some (r', st')) :
    ∃ b, a.from_ st = (.ok b, st') ∧ (done b).record = r' := by
  rw [Outcome.run_ofAction] at h
  rcases ha : a.from_ st with ⟨x, st''⟩
  rw [ha] at h
  cases x with
  | error cause => cases h
  | ok b =>
    simp only at h
    rcases hd : done b with ⟨d, result⟩
    rw [hd] at h
    cases result with
    | error cause => cases h
    | ok x =>
      cases h
      exact ⟨b, rfl, by rw [hd]⟩

end

namespace Model

variable {σ : Type} {m : Model} {c : Connection σ}

theorem knownKey?_of_requireKey {r : Record} {key : Value} (h : m.requireKey r = .ok key) :
    r.knownKey? = some key := by
  unfold requireKey at h
  split at h
  · rename_i hk
    cases h
    exact hk
  · cases h

theorem isNull_of_knownKey? {r : Record} {key : Value} (h : r.knownKey? = some key) :
    key.isNull = false := by
  simpa using (Option.filter_eq_some_iff.1 h).2

/-- The statement that sets columns of the row of a key was answered, and led from one state to
another. -/
structure Writes (m : Model) (c : Connection σ) (key : Value) (values : List (String × Value))
    (st st' : σ) : Prop where
  known : key.isNull = false
  sent : ∃ statement n,
    (m.rowQuery key).updateStatement c.dialect (assignments values) = .ok statement ∧
      (c.update statement).from_ st = (.ok n, st')

/-- The statement that asks for the row of a key was answered with this row. -/
structure Reads (m : Model) (c : Connection σ) (key : Value) (row : Row) (st st' : σ) : Prop where
  known : key.isNull = false
  sent : ∃ statement rows, ((m.rowQuery key).take 1).selectStatement c.dialect = .ok statement ∧
    (c.select statement).from_ st = (.ok rows, st') ∧ rows.head? = some row

theorem writes_of_update {r : Record} {key : Value} {values : List (String × Value)} {n : UInt64}
    {st st' : σ} (hk : r.knownKey? = some key)
    (h : ((m.rowQuery key).update c (assignments values)).from_ st = (.ok n, st')) :
    m.Writes c key values st st' := by
  obtain ⟨statement, hs, hu⟩ := Action.from_ofExcept_bind_eq_ok h
  exact ⟨isNull_of_knownKey? hk, statement, n, hs, hu⟩

/-- A state of a connection holds the row of a key: a statement that sets columns of the row of that
key is applied to it when it is answered, and a question for the row is answered with it. -/
structure Keeps (m : Model) (c : Connection σ) (row : σ → Row) (key : Value) (st : σ) : Prop where
  writes : ∀ {values st'}, m.Writes c key values st st' → row st' = (row st).insertMany values
  reads : ∀ {found st'}, m.Reads c key found st st' → found = row st ∧ row st' = row st

/-- Along a run, the row of the key that a change names is the one that the connection holds. -/
def KeepsAlong (m : Model) (c : Connection σ) (row : σ → Row) (changes : List Change)
    (first : Record × σ) : Prop :=
  ∀ past change, past ++ [change] <+: changes → ∀ r st,
    Change.run m c past first = some (r, st) → ∀ key, change.rowKey? m r = some key →
      m.Keeps c row key st

theorem KeepsAlong.of_prefix {row : σ → Row} {past changes : List Change} {first : Record × σ}
    (h : m.KeepsAlong c row changes first) (hp : past <+: changes) :
    m.KeepsAlong c row past first := fun earlier change he => h earlier change (he.trans hp)

/-- **What an update did.** Nothing, or it wrote the dirty attributes, the time of change among
them, and took all attributes for stored. -/
theorem update_eq {now : Timestamp} {r r' : Record} {st st' : σ}
    (h : Change.kept ((m.update c now r).run st) = some (r', st')) :
    (r.isDirty = false ∧ r' = r ∧ st' = st) ∨
      ∃ key, (m.touched now r).knownKey? = some key ∧
        m.Writes c key (m.touched now r).dirty.entries st st' ∧
          r' = (m.touched now r).markClean := by
  unfold update at h
  cases hd : r.isDirty with
  | false =>
    rw [hd] at h
    cases h
    exact .inl ⟨rfl, rfl, rfl⟩
  | true =>
    simp only [hd, if_true] at h
    obtain ⟨u, hu, rfl⟩ := Change.kept_ofAction h
    obtain ⟨key, hk, hw⟩ := Action.from_ofExcept_bind_eq_ok hu
    obtain ⟨n, hn⟩ := Action.from_discard_eq_ok hw
    have hk := knownKey?_of_requireKey hk
    exact .inr ⟨key, hk, writes_of_update hk hn, rfl⟩

theorem save_eq {now : Timestamp} {r r' : Record} {st st' : σ} (hr : r.stored = true)
    (h : Change.kept ((m.save c now r).run st) = some (r', st')) :
    Change.kept ((m.update c now r).run st) = some (r', st') := by
  rwa [save, if_pos hr] at h

/-- **What a deletion did.** It wrote the marks of deletion, set them in the record, and took all
attributes for stored. -/
theorem delete_eq {now : Timestamp} {r r' : Record} {st st' : σ} (hs : m.softDeletes = true)
    (hr : r.stored = true) (h : Change.kept ((m.delete c now r).run st) = some (r', st')) :
    ∃ key, r.knownKey? = some key ∧ m.Writes c key (m.deletionMarks now) st st' ∧
      r' = (r.fill (m.deletionMarks now)).markClean := by
  simp only [delete, hs, hr, Bool.not_true, Bool.false_eq_true, if_false] at h
  obtain ⟨n, hn, rfl⟩ := Change.kept_ofAction h
  obtain ⟨key, hk, hw⟩ := Action.from_ofExcept_bind_eq_ok hn
  have hk := knownKey?_of_requireKey hk
  exact ⟨key, hk, writes_of_update hk hw, rfl⟩

/-- **What a restoration did.** It took the mark of deletion off and saved. -/
theorem restore_eq {now : Timestamp} {r r' : Record} {st st' : σ} (hs : m.softDeletes = true)
    (hr : r.stored = true) (h : Change.kept ((m.restore c now r).run st) = some (r', st')) :
    Change.kept ((m.save c now (r.set m.deletedAt .null)).run st) = some (r', st') := by
  simp only [restore, hs, hr, Bool.and_self, if_true, StateT.run_bind] at h
  rcases hsave : (m.save c now (r.set m.deletedAt .null)).run st with ⟨⟨r₁, result⟩, st₁⟩
  rw [hsave] at h
  cases result <;> cases h
  rfl

/-- **What a reload did.** It read the row and took its values for all attributes. -/
theorem refresh_eq {r r' : Record} {st st' : σ}
    (h : Change.kept ((m.refresh c r).run st) = some (r', st')) :
    ∃ key row, r.knownKey? = some key ∧ m.Reads c key row st st' ∧
      r' = r.replaceAttributes row := by
  obtain ⟨row, hrow, rfl⟩ := Change.kept_ofAction h
  obtain ⟨key, hk, hf⟩ := Action.from_ofExcept_bind_eq_ok hrow
  obtain ⟨found, st₁, hfirst, hf⟩ := Action.from_bind_eq_ok hf
  obtain ⟨rows, st₂, hrows, hhead⟩ := Action.from_bind_eq_ok hfirst
  obtain ⟨statement, hs, hselect⟩ := Action.from_ofExcept_bind_eq_ok hrows
  cases hhead
  cases hhd : rows.head? with
  | none => simp [hhd] at hf
  | some row' =>
    rw [hhd] at hf
    cases hf
    have hk := knownKey?_of_requireKey hk
    exact ⟨key, row, hk, ⟨isNull_of_knownKey? hk, statement, rows, hs, hselect, hhd⟩, rfl⟩

end Model

end ActiveRow
