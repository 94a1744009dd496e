import ActiveRow.Proofs.Sending

/-!
# Transactions

The body of a transaction as a tree of requests: what it sends next, and how it ends, may depend on
every answer so far. Requests go over the connection that the body is given, or outside of the
transaction over the one that the transaction was asked of.

* `Body.log_course`: what a body adds to the log.
* `from_enclose`: a transaction opens, runs its body and closes as that ended.
* `transaction_protocol`: what the adapters receive in a transaction, and what comes out of it.
-/

namespace ActiveRow

/-- A request of a connection. -/
inductive Request where
  | select (s : Statement)
  | insert (s : Statement)
  | insertedKey (s : Statement) (key : String)
  | update (s : Statement)
  | delete (s : Statement)
  | execute (s : Statement)

namespace Request

variable {σ : Type}

/-- What the answer to a request gives. -/
def Answer : Request → Type
  | select _ => List Row
  | insertedKey _ _ => Option Value
  | insert _ | update _ | delete _ | execute _ => UInt64

def send (c : Connection σ) : (r : Request) → Action σ r.Answer
  | select s => c.select s
  | insert s => c.insert s
  | insertedKey s key => c.insertedKey s key
  | update s => c.update s
  | delete s => c.delete s
  | execute s => c.execute s

/-- What an adapter receives. In a dialect that cannot return it, a key is not asked for. -/
def sent (d : Dialect) (adapter : String) : Request → List Sent
  | select s | insert s | update s | delete s | execute s => [⟨adapter, s.sql, s.bindings⟩]
  | insertedKey s key =>
    if d.supportsReturning then [⟨adapter, (Adapter.returning s key).sql, s.bindings⟩] else []

end Request

/-- The body of a transaction. -/
inductive Body (α : Type) where
  | ends (result : Except Fault α)
  | sends (outside : Bool) (r : Request) (next : Except Fault r.Answer → Body α)

/-- What a body did in a run: its requests in order, each with whether it was sent outside of the
transaction, how it ended, and the state it left. -/
structure Course (σ α : Type) where
  requests : List (Bool × Request)
  result : Except Fault α
  after : σ

namespace Body

variable {σ α : Type}

/-- Runs a body whose transaction has the connection `tx`. -/
def run (outer tx : Connection σ) : Body α → Action σ α
  | ends result => .ofExcept result
  | sends outside r next => do
    run outer tx (next (← (r.send (if outside then outer else tx)).attempt))

def course (outer tx : Connection σ) : Body α → σ → Course σ α
  | ends result, st => ⟨[], result, st⟩
  | sends outside r next, st =>
    let answered := (r.send (if outside then outer else tx)).from_ st
    let rest := course outer tx (next answered.1) answered.2
    { rest with requests := (outside, r) :: rest.requests }

theorem from_run (outer tx : Connection σ) (body : Body α) : ∀ st : σ,
    (body.run outer tx).from_ st =
      ((body.course outer tx st).result, (body.course outer tx st).after) := by
  induction body with
  | ends result => intro st; rfl
  | sends outside r next ih =>
    intro st
    rw [run, Action.from_bind, Action.from_attempt]
    exact ih _ _

end Body

namespace Script

variable {υ α : Type} {driver name own : String} {d : Dialect}
variable {scope : Except Fault (Option String)}

/-! ### What a body sends -/

theorem log_rows (s : Statement) (st : Script υ) :
    (((adapter driver d name).rows s).from_ st).2.log =
      st.log ++ [⟨name, s.sql, s.bindings⟩] := by
  rw [from_rows]
  rfl

theorem log_change (s : Statement) (st : Script υ) :
    (((adapter driver d name).change s).from_ st).2.log =
      st.log ++ [⟨name, s.sql, s.bindings⟩] := by
  rw [from_change]
  rfl

theorem log_insertedKey (s : Statement) (key : String) (st : Script υ) :
    (((adapter driver d name).insertedKey s key).from_ st).2.log =
      st.log ++ (Request.insertedKey s key).sent d name := by
  have hdialect : (adapter driver d name : Adapter (Script υ)).dialect = d := rfl
  rw [Adapter.insertedKey, Request.sent, hdialect]
  by_cases hr : d.supportsReturning = true
  · rw [if_pos hr, if_pos hr, Action.from_bind, from_rows]
    cases st.reply name <;> rfl
  · rw [if_neg hr, if_neg hr, List.append_nil]
    rfl

/-- A request over this connection adds what its adapter receives, whatever the answer is. -/
def LogsAs (d : Dialect) (name : String) (c : Connection (Script υ)) : Prop :=
  ∀ (r : Request) (st : Script υ), ((r.send c).from_ st).2.log = st.log ++ r.sent d name

theorem logsAs_connection : LogsAs d name (connection driver d name scope : Connection (Script υ))
  | .select s => log_dispatch .select s (log_rows s)
  | .insert s => log_dispatch .insert s (log_change s)
  | .insertedKey s key => log_dispatch .insert s (log_insertedKey s key)
  | .update s => log_dispatch .update s (log_change s)
  | .delete s => log_dispatch .delete s (log_change s)
  | .execute s => log_dispatch .statement s (log_change s)

/-- What requests put into the log, those outside under one name and the others under another. -/
def sentBy (d : Dialect) (name own : String) (requests : List (Bool × Request)) : List Sent :=
  requests.flatMap fun e => e.2.sent d (if e.1 then name else own)

/-- **What a body adds to the log**: its requests, each for the adapter that it was sent over. -/
theorem log_course {outer tx : Connection (Script υ)} (houter : LogsAs d name outer)
    (htx : LogsAs d own tx) (body : Body α) : ∀ st : Script υ,
    (body.course outer tx st).after.log =
      st.log ++ sentBy d name own (body.course outer tx st).requests := by
  induction body with
  | ends result => intro st; exact (List.append_nil _).symm
  | sends outside r next ih =>
    intro st
    have hfirst : ((r.send (if outside then outer else tx)).from_ st).2.log =
        st.log ++ r.sent d (if outside then name else own) := by
      cases outside
      · exact htx r st
      · exact houter r st
    rw [Body.course, sentBy, List.flatMap_cons, ← List.append_assoc, ← hfirst]
    exact ih _ _

/-! ### The log of one adapter -/

/-- What an adapter received. -/
def received (adapter : String) (log : List Sent) : List Sent :=
  log.filter fun e => e.adapter = adapter

theorem adapter_of_mem_sent {d : Dialect} {r : Request} {e : Sent} (h : e ∈ r.sent d name) :
    e.adapter = name := by
  cases r with
  | insertedKey s key =>
    rw [Request.sent] at h
    split at h
    · rw [List.mem_singleton.1 h]
    · cases h
  | select s | insert s | update s | delete s | execute s => rw [List.mem_singleton.1 h]

theorem received_sent (d : Dialect) (r : Request) : received name (r.sent d own) =
    if own = name then r.sent d own else [] := by
  split
  · exact List.filter_eq_self.2 fun e he => by simpa [adapter_of_mem_sent he]
  · exact List.filter_eq_nil_iff.2 fun e he => by simpa [adapter_of_mem_sent he]

/-- An adapter hears of the requests that were sent over it, and of no others. -/
theorem received_sentBy (d : Dialect) (name own adapter : String)
    (requests : List (Bool × Request)) : received adapter (sentBy d name own requests) =
      (requests.filter fun e => (if e.1 then name else own) = adapter).flatMap fun e =>
        e.2.sent d adapter := by
  induction requests with
  | nil => rfl
  | cons e requests ih =>
    have hcons : received adapter (sentBy d name own (e :: requests)) =
        received adapter (e.2.sent d (if e.1 then name else own)) ++
          received adapter (sentBy d name own requests) := List.filter_append ..
    rw [hcons, received_sent, ih, List.filter_cons]
    by_cases he : (if e.1 then name else own) = adapter
    · rw [if_pos he, if_pos (decide_eq_true he), List.flatMap_cons, he]
    · rw [if_neg he, if_neg (by simpa using he), List.nil_append]

theorem received_own (h : own ≠ name) (requests : List (Bool × Request)) :
    received own (sentBy d name own requests) =
      (requests.filter fun e => !e.1).flatMap fun e => e.2.sent d own := by
  have hown : ∀ e : Bool × Request, decide ((if e.1 then name else own) = own) = !e.1 := by
    intro e
    cases e.1 <;> simp [Ne.symm h]
  rw [received_sentBy, List.filter_congr fun e _ => hown e]

theorem received_outer (h : own ≠ name) (requests : List (Bool × Request)) :
    received name (sentBy d name own requests) =
      (requests.filter fun e => e.1).flatMap fun e => e.2.sent d name := by
  have houter : ∀ e : Bool × Request, decide ((if e.1 then name else own) = name) = e.1 := by
    intro e
    cases e.1 <;> simp [h]
  rw [received_sentBy, List.filter_congr fun e _ => houter e]

/-! ### Opening and closing -/

/-- The request that closes a transaction whose body ended so. -/
def closing : Except Fault α → String
  | .ok _ => "COMMIT"
  | .error _ => "ROLLBACK"

/-- How a transaction ends, by how its body ended and by the reply to the request that closed it. -/
def conclude : Except Fault α → Reply → Except Fault α
  | .ok x, .ok _ => .ok x
  | .ok _, .error failure => .error failure
  | .error cause, .ok _ => .error cause
  | .error cause, .error failure => .error (.rollback cause failure)

theorem from_signal (request : String) (st : Script υ) : (signal name request).from_ st =
    ((st.reply name).map fun _ => (), st.receive ⟨name, request, []⟩) := by
  have hsend : (send ⟨name, request, []⟩ : Action (Script υ) Output).from_ st =
      (st.reply name, st.receive ⟨name, request, []⟩) := rfl
  show (send ⟨name, request, []⟩ >>= fun _ => pure ()).from_ st = _
  rw [Action.from_bind, hsend]
  cases st.reply name <;> rfl

theorem from_close (result : Except Fault α) (st : Script υ) :
    ((connection driver d own scope).close result).from_ st =
      (conclude result (st.reply own), st.receive ⟨own, closing result, []⟩) := by
  cases result with
  | ok x =>
    have hcommit : (connection driver d own scope).adapter.commit.from_ st =
        ((st.reply own).map fun _ => (), st.receive ⟨own, "COMMIT", []⟩) := from_signal "COMMIT" st
    rw [Connection.close, Action.from_bind, hcommit]
    cases st.reply own <;> rfl
  | error cause =>
    have hrollback : (connection driver d own scope).adapter.rollback.from_ st =
        ((st.reply own).map fun _ => (), st.receive ⟨own, "ROLLBACK", []⟩) :=
      from_signal "ROLLBACK" st
    rw [Connection.close, Action.from_bind, Action.from_attempt, hrollback]
    cases st.reply own <;> rfl

/-- **A transaction** opens, runs its body if that was answered, and closes as the body ended. -/
theorem from_enclose (body : Connection (Script υ) → Action (Script υ) α) (st : Script υ) :
    ((connection driver d own scope).enclose body).from_ st =
      match st.reply own with
      | .error cause => (.error cause, st.receive ⟨own, "BEGIN", []⟩)
      | .ok _ =>
        let ended := (body (connection driver d own scope)).from_ (st.receive ⟨own, "BEGIN", []⟩)
        (conclude ended.1 (ended.2.reply own), ended.2.receive ⟨own, closing ended.1, []⟩) := by
  have hbegin : (connection driver d own scope).adapter.begin_.from_ st =
      ((st.reply own).map fun _ => (), st.receive ⟨own, "BEGIN", []⟩) := from_signal "BEGIN" st
  rw [Connection.enclose, Action.from_bind, hbegin]
  cases st.reply own with
  | error cause => rfl
  | ok output =>
    simp only [Except.map, Action.from_bind, Action.from_attempt]
    exact from_close _ _

/-- What the requests of a transaction are and how it ends, when it was opened and its body took
this course: `own` is the name of its adapter, `name` that of the adapter outside. -/
structure Enclosed (d : Dialect) (name own : String) (course : Course (Script υ) α)
    (more : List Sent) (result : Except Fault α) : Prop where
  log : more = ⟨own, "BEGIN", []⟩ :: sentBy d name own course.requests ++
    [⟨own, closing course.result, []⟩]
  shared : own = name → more = ⟨own, "BEGIN", []⟩ ::
    (course.requests.flatMap fun e => e.2.sent d own) ++ [⟨own, closing course.result, []⟩]
  inside : own ≠ name → received own more = ⟨own, "BEGIN", []⟩ ::
    ((course.requests.filter fun e => !e.1).flatMap fun e => e.2.sent d own) ++
      [⟨own, closing course.result, []⟩]
  outside : own ≠ name → received name more =
    (course.requests.filter fun e => e.1).flatMap fun e => e.2.sent d name
  result : result = conclude course.result (course.after.reply own)

theorem Enclosed.of_log {course : Course (Script υ) α} {more : List Sent} {result : Except Fault α}
    (hlog : more = ⟨own, "BEGIN", []⟩ :: sentBy d name own course.requests ++
      [⟨own, closing course.result, []⟩])
    (hresult : result = conclude course.result (course.after.reply own)) :
    Enclosed d name own course more result where
  log := hlog
  shared h := by
    subst h
    simpa [sentBy] using hlog
  inside h := by
    rw [hlog, ← received_own h]
    simp [received]
  outside h := by
    rw [hlog, ← received_outer h]
    simp [received, h]
  result := hresult

/-- **What is sent in a transaction**: the opening, and once that was answered, the requests of the
body and the closing. -/
theorem log_enclose {c : Connection (Script υ)} (hc : LogsAs d name c) (body : Body α)
    (st : Script υ) :
    let tx := connection driver d own scope
    let ended := (tx.enclose fun tx => body.run c tx).from_ st
    ∃ more, ended.2.log = st.log ++ more ∧
      match st.reply own with
      | .error cause => more = [⟨own, "BEGIN", []⟩] ∧ ended.1 = .error cause
      | .ok _ =>
        Enclosed d name own (body.course c tx (st.receive ⟨own, "BEGIN", []⟩)) more ended.1 := by
  intro tx ended
  have hended : ended = _ := from_enclose _ st
  cases hreply : st.reply own with
  | error cause =>
    rw [hreply] at hended
    rw [hended]
    exact ⟨[⟨own, "BEGIN", []⟩], rfl, rfl, rfl⟩
  | ok output =>
    let course := body.course c tx (st.receive ⟨own, "BEGIN", []⟩)
    have hclosed : ended = (conclude course.result (course.after.reply own),
        course.after.receive ⟨own, closing course.result, []⟩) := by
      rw [hended, hreply]
      simp only [Body.from_run]
      rfl
    -- the body starts with the opening in the log
    have hlog : course.after.log =
        (st.log ++ [⟨own, "BEGIN", []⟩]) ++ sentBy d name own course.requests :=
      log_course hc logsAs_connection body _
    refine ⟨_, ?_, .of_log rfl (congrArg Prod.fst hclosed)⟩
    have hlast : ended.2.log = course.after.log ++ [⟨own, closing course.result, []⟩] := by
      rw [hclosed]
      rfl
    rw [hlast, hlog]
    simp only [List.append_assoc, List.cons_append, List.nil_append]
    rfl

/-- Without a scope the transaction runs on the adapter of the connection itself. -/
theorem from_transaction (target : Option String)
    (body : Connection (Script υ) → Action (Script υ) α) (st : Script υ) :
    ((connection driver d name (.ok target)).transaction body).from_ st =
      ((connection driver d (target.getD name) (.ok none)).enclose body).from_ st := by
  cases target with
  | none => rfl
  | some own =>
    -- a scripted adapter holds nothing that it would have to give up
    show (((connection driver d own (.ok none)).enclose body).attempt >>= fun result => do
      .update id
      .ofExcept result).from_ st = _
    rw [Action.from_bind, Action.from_attempt]
    rfl

/-- **The course of a transaction.** When its adapter cannot be acquired, nothing is sent; when the
adapter does not open it, the body is not run. Else the body is run and the transaction is closed,
by a commit exactly when the body gave a result. An adapter of its own hears of the opening, of what
the body sends inside, in order, and of the closing, and the adapter outside only of what the body
sends outside. The transaction gives a result exactly when the opening, the body and the commit did;
else it gives the fault of the first that failed, and of the rollback also, if that failed. -/
theorem transaction_protocol (driver : String) (d : Dialect) (name : String)
    (scope : Except Fault (Option String)) (body : Body α) (st : Script υ) :
    let c := connection driver d name scope
    let ended := (c.transaction fun tx => body.run c tx).from_ st
    ∃ more, ended.2.log = st.log ++ more ∧
      match scope with
      | .error cause => more = [] ∧ ended.1 = .error cause
      | .ok target =>
        let own := target.getD name
        match st.reply own with
        | .error cause => more = [⟨own, "BEGIN", []⟩] ∧ ended.1 = .error cause
        | .ok _ =>
          let tx := connection driver d own (.ok none)
          Enclosed d name own (body.course c tx (st.receive ⟨own, "BEGIN", []⟩)) more ended.1 := by
  intro c ended
  cases scope with
  | error cause => exact ⟨[], (List.append_nil _).symm, rfl, rfl⟩
  | ok target =>
    have hended : ended = _ := from_transaction target _ st
    rw [hended]
    exact log_enclose logsAs_connection body st

/-- A body sends a statement inside and one outside, and fails. -/
example :
    let c : Connection (Script Unit) := connection "sqlite" .sqlite "main" (.ok (some "own"))
    let body : Body Unit :=
      .sends false (.delete ⟨"DELETE FROM t", []⟩) fun _ =>
        .sends true (.execute ⟨"ANALYZE", []⟩) fun _ => .ends (.error (.other "enough"))
    let ended := (c.transaction fun tx => body.run c tx).from_ (start ())
    ended.1 = .error (.other "enough") ∧
      ended.2.log =
        [⟨"own", "BEGIN", []⟩, ⟨"own", "DELETE FROM t", []⟩, ⟨"main", "ANALYZE", []⟩,
          ⟨"own", "ROLLBACK", []⟩] :=
  ⟨rfl, rfl⟩

end Script

end ActiveRow
