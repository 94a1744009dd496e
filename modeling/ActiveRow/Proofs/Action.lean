import ActiveRow.Loader

/-!
# Running actions

What running an action from a state comes to, one lemma for each way an action is put together.

* `from_bind`: the second action runs where the first one left the state, if that gave a result.
* `from_dispatch`: sending a statement through a connection is sending it through its adapter, with
  the events noted around it.
* `Relation.loader_eq`: loading a relation is fetching the related rows and attaching them.
-/

namespace ActiveRow

namespace Action

variable {σ α β : Type}

@[simp] theorem from_pure (x : α) (s : σ) : (pure x : Action σ α).from_ s = (.ok x, s) := rfl

@[simp] theorem from_throw (cause : Fault) (s : σ) :
    (throw cause : Action σ α).from_ s = (.error cause, s) := rfl

@[simp] theorem from_ofExcept (r : Except Fault α) (s : σ) : (ofExcept r).from_ s = (r, s) := rfl

@[simp] theorem from_update (f : σ → σ) (s : σ) : (update f).from_ s = (.ok (), f s) := rfl

@[simp] theorem from_attempt (a : Action σ α) (s : σ) :
    a.attempt.from_ s = (.ok (a.from_ s).1, (a.from_ s).2) := rfl

theorem from_bind (a : Action σ α) (k : α → Action σ β) (s : σ) :
    (a >>= k).from_ s =
      match a.from_ s with
      | (.ok x, s') => (k x).from_ s'
      | (.error cause, s') => (.error cause, s') := by
  simp only [from_, ExceptT.run_bind, StateT.run_bind]
  rcases (ExceptT.run a).run s with ⟨r, s'⟩
  cases r <;> rfl

/-- What a run of two actions with a result went through. -/
theorem from_bind_eq_ok {a : Action σ α} {k : α → Action σ β} {y : β} {s s'' : σ}
    (h : (a >>= k).from_ s = (.ok y, s'')) :
    ∃ x s', a.from_ s = (.ok x, s') ∧ (k x).from_ s' = (.ok y, s'') := by
  rw [from_bind] at h
  rcases ha : a.from_ s with ⟨r, s'⟩
  cases r with
  | ok x => exact ⟨x, s', rfl, by simpa [ha] using h⟩
  | error cause => simp [ha] at h

theorem from_discard_eq_ok {a : Action σ α} {s s' : σ}
    (h : (discard a : Action σ PUnit).from_ s = (.ok (), s')) : ∃ x, a.from_ s = (.ok x, s') := by
  obtain ⟨x, s₁, hx, h⟩ := from_bind_eq_ok (a := a) (k := fun _ => pure ()) h
  cases h
  exact ⟨x, hx⟩

theorem from_ofExcept_bind_eq_ok {r : Except Fault α} {k : α → Action σ β} {y : β} {s s' : σ}
    (h : (ofExcept r >>= k).from_ s = (.ok y, s')) :
    ∃ x, r = .ok x ∧ (k x).from_ s = (.ok y, s') := by
  rw [from_bind, from_ofExcept] at h
  cases r with
  | ok x => exact ⟨x, rfl, h⟩
  | error cause => simp at h

end Action

namespace Adapter

variable {σ : Type} (a : Adapter σ) (s : Statement) (st : σ)

theorem from_rows : (a.rows s).from_ st =
    (((a.query s.sql s.bindings).from_ st).1.map Output.rows,
      ((a.query s.sql s.bindings).from_ st).2) := by
  rw [rows, Action.from_bind]
  rcases (a.query s.sql s.bindings).from_ st with ⟨r, st'⟩
  cases r <;> rfl

theorem from_change : (a.change s).from_ st =
    (((a.query s.sql s.bindings).from_ st).1.map Output.count,
      ((a.query s.sql s.bindings).from_ st).2) := by
  rw [change, Action.from_bind]
  rcases (a.query s.sql s.bindings).from_ st with ⟨r, st'⟩
  cases r <;> rfl

end Adapter

namespace Connection

variable {σ α : Type} (c : Connection σ)

/-- **Sending a statement** is one step of the adapter between the events around it. -/
theorem from_dispatch (kind : StatementKind) (s : Statement) (send : Action σ α) (st : σ) :
    (c.dispatch kind s send).from_ st =
      match send.from_ (c.observe (.dispatching kind s.sql) st) with
      | (.ok x, st') => (.ok x, st')
      | (.error cause, st') => (.error cause, c.observe (.failed kind cause) st') := by
  simp only [dispatch, report, Action.from_bind, Action.from_update, Action.from_attempt]
  rcases send.from_ (c.observe (.dispatching kind s.sql) st) with ⟨r, st'⟩
  cases r with
  | ok x => rfl
  | error cause => rfl

/-- A query gives the rows that the adapter answers with. -/
theorem from_select (s : Statement) {out : Output} {st st' : σ}
    (h : (c.adapter.query s.sql s.bindings).from_ (c.observe (.dispatching .select s.sql) st) =
      (.ok out, st')) : (c.select s).from_ st = (.ok out.rows, st') := by
  rw [select, from_dispatch, Adapter.from_rows, h]
  rfl

/-- Nobody observes a connection that only has an adapter. -/
theorem from_dispatch_ofAdapter (a : Adapter σ) (kind : StatementKind) (s : Statement)
    (send : Action σ α) (st : σ) : ((ofAdapter a).dispatch kind s send).from_ st =
      send.from_ st := by
  rw [from_dispatch]
  simp only [ofAdapter]
  rcases send.from_ st with ⟨r, st'⟩
  cases r <;> rfl

end Connection

namespace Relation

variable {σ : Type} (rel : Relation) (c : Connection σ) (name : String) (parents : List Record)

/-- How loading a relation ends, and the records behind it. -/
theorem run_load (st : σ) : (rel.load c name parents).run st =
    match (rel.relatedRows c parents).from_ st with
    | (.ok rows, st') =>
      ((.ok (), parents.map fun p => p.setRelation name (rel.related p rows)), st')
    | (.error cause, st') => ((.error cause, parents), st') := by
  simp only [load, StateT.run_bind, Action.from_]
  rcases (rel.relatedRows c parents).run.run st with ⟨r, st'⟩
  cases r <;> rfl

/-- The loader of a relation gives the records behind loading, unless that ended with a fault. -/
theorem from_loader (st : σ) : (rel.loader c name parents).from_ st =
    (((rel.load c name parents).run st).1.1.map fun () => ((rel.load c name parents).run st).1.2,
      ((rel.load c name parents).run st).2) := rfl

theorem loader_eq : rel.loader c name parents = rel.relatedRows c parents >>= fun rows =>
    pure (parents.map fun p => p.setRelation name (rel.related p rows)) := by
  funext st
  change (rel.loader c name parents).from_ st = Action.from_ (_ >>= _) st
  rw [from_loader, run_load, Action.from_bind]
  rcases (rel.relatedRows c parents).from_ st with ⟨r, st'⟩
  cases r <;> rfl

end Relation

end ActiveRow
