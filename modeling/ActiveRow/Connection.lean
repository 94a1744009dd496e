import ActiveRow.Adapter
import ActiveRow.Event

/-!
# Connections

A connection sends statements through an adapter, reports each one and each failure, and runs
transactions. A transaction may have an adapter of its own.
-/

namespace ActiveRow

structure Connection (σ : Type) where
  adapter : Adapter σ
  /-- Acquires the adapter of a transaction, if that is to be another one. -/
  scope : Action σ (Option (Adapter σ))
  /-- Takes note of an event. -/
  observe : Event → σ → σ

namespace Connection

variable {σ α : Type}

/-- A connection whose transactions run on its own adapter and that reports to nobody. -/
def ofAdapter (adapter : Adapter σ) : Connection σ :=
  { adapter, scope := pure none, observe := fun _ s => s }

def dialect (c : Connection σ) : Dialect := c.adapter.dialect

def report (c : Connection σ) (e : Event) : Action σ Unit := .update (c.observe e)

/-- Sends a statement and reports it, and its failure if it fails. -/
def dispatch (c : Connection σ) (kind : StatementKind) (s : Statement) (send : Action σ α) :
    Action σ α := do
  c.report (.dispatching kind s.sql)
  match ← send.attempt with
  | .ok a => pure a
  | .error cause =>
    c.report (.failed kind cause)
    throw cause

def select (c : Connection σ) (s : Statement) : Action σ (List Row) :=
  c.dispatch .select s (c.adapter.rows s)

def insert (c : Connection σ) (s : Statement) : Action σ UInt64 :=
  c.dispatch .insert s (c.adapter.change s)

/-- Inserts a row and gives its value of `key`. -/
def insertedKey (c : Connection σ) (s : Statement) (key : String) : Action σ (Option Value) :=
  c.dispatch .insert s (c.adapter.insertedKey s key)

def update (c : Connection σ) (s : Statement) : Action σ UInt64 :=
  c.dispatch .update s (c.adapter.change s)

def delete (c : Connection σ) (s : Statement) : Action σ UInt64 :=
  c.dispatch .delete s (c.adapter.change s)

def execute (c : Connection σ) (s : Statement) : Action σ UInt64 :=
  c.dispatch .statement s (c.adapter.change s)

/-! ### Transactions -/

/-- Closes a transaction as its body ended: commits, or rolls back and passes the fault on. -/
def close (tx : Connection σ) : Except Fault α → Action σ α
  | .ok a => do
    tx.adapter.commit
    pure a
  | .error cause => do
    match ← tx.adapter.rollback.attempt with
    | .ok () => throw cause
    | .error failure => throw (.rollback cause failure)

/-- Opens a transaction, runs `body` in it, and closes it. -/
def enclose (tx : Connection σ) (body : Connection σ → Action σ α) : Action σ α := do
  tx.adapter.begin_
  tx.close (← (body tx).attempt)

/-- Runs `body` in a transaction, on the connection of the transaction. -/
def transaction (c : Connection σ) (body : Connection σ → Action σ α) : Action σ α := do
  match ← c.scope with
  | some adapter =>
    let result ← (enclose { adapter, scope := pure none, observe := c.observe } body).attempt
    .update adapter.release
    .ofExcept result
  | none => c.enclose body

end Connection

end ActiveRow
