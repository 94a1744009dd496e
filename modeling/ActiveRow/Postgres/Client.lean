import ActiveRow.Connection
import ActiveRow.Postgres.Address
import ActiveRow.Postgres.Server
import ActiveRow.Settings

/-!
# Clients of PostgreSQL

A client keeps the links of its adapters. A direct link holds one connection, opened when it is
first needed, from then on. A pooled link takes a connection from the pool for each statement, and
holds one only while a transaction is open. A pinned link is made for one transaction: it holds a
connection of the pool from the start and gives it back for good at the end.

* `acquire_pinned`: a pinned link that gave its connection back reaches no other.
-/

namespace ActiveRow.Postgres

inductive Source where
  /-- Connections are opened at an address, if one is known. -/
  | direct (known : Bool)
  | pool
  | pinned
  deriving DecidableEq

structure Link where
  source : Source
  /-- The connection that the link holds. -/
  held : Option Nat := none
  connected : Bool := false

structure Pool where
  /-- Connections that nobody holds, in the order in which they were given back. -/
  idle : List Nat := []
  closed : Bool := false

structure Client where
  server : Server
  pool : Pool := {}
  /-- The links by number; the first one is that of the main adapter. -/
  links : List Link

instance : Inhabited Link := ⟨{ source := .pinned }⟩

namespace Client

def link (i : Nat) : Action Client Link := do pure ((← get).links.getD i default)

def setLink (i : Nat) (l : Link) (c : Client) : Client := { c with links := c.links.set i l }

/-- Runs an action of the server. -/
def onServer {α : Type} (a : Action Server α) : Action Client α := fun c =>
  let (r, server) := a.from_ c.server
  (r, { c with server })

/-! ### The pool -/

/-- Takes the connection that was idle longest, or opens one. -/
def checkout : Action Client Nat := do
  let c ← get
  if c.pool.closed then throw (.pool "pool is closed")
  match c.pool.idle with
  | n :: idle =>
    set { c with pool.idle := idle }
    pure n
  | [] =>
    match ← (onServer Server.open_).attempt with
    | .ok n => pure n
    | .error cause => throw (.pool cause.message)

/-- Gives a connection back. A closed pool drops it. -/
def giveBack (n : Nat) (c : Client) : Client :=
  if c.pool.closed then c else { c with pool.idle := c.pool.idle ++ [n] }

/-- Makes a link let go of its connection. One that came from the pool goes back there. -/
def letGo (i : Nat) (c : Client) : Client :=
  match c.links[i]? with
  | some l =>
    let c := c.setLink i { l with held := none }
    match l.source, l.held with
    | .direct _, _ | _, none => c
    | _, some n => c.giveBack n
  | none => c

/-! ### Links -/

/-- A connection for a link that holds none. -/
def acquire (l : Link) : Action Client Nat :=
  match l.source with
  | .direct true => onServer Server.open_
  | .direct false => throw (.connection .unreachable)
  | .pool => checkout
  | .pinned => throw (.connection .released)

theorem acquire_pinned {l : Link} (h : l.source = .pinned) (c : Client) :
    (acquire l).from_ c = (.error (.connection .released), c) := by
  simp only [acquire, h]
  rfl

def connect (i : Nat) : Action Client Unit := do
  let l ← link i
  match l.source, l.held with
  | .pool, _ =>
    let n ← checkout
    Action.update fun c => (c.giveBack n).setLink i { l with connected := true }
  | _, some _ => Action.update (setLink i { l with connected := true })
  | _, none =>
    let n ← acquire l
    Action.update (setLink i { l with held := some n, connected := true })

/-- Lets go of the connection and closes the pool. -/
def disconnect (i : Nat) : Action Client Unit := do
  let l ← link i
  Action.update (letGo i)
  if l.source = .pool then
    Action.update fun c => { c with pool := { idle := [], closed := true } }
  Action.update (setLink i { l with held := none, connected := false })

def query (i : Nat) (sql : String) (values : List Value) : Action Client Output := do
  let l ← link i
  match l.held with
  | some n => onServer (Server.execute n sql values)
  | none =>
    let n ← acquire l
    if l.source = .pool then
      -- the connection goes back also after a fault
      let answer ← (onServer (Server.execute n sql values)).attempt
      Action.update (giveBack n)
      .ofExcept answer
    else
      Action.update (setLink i { l with held := some n, connected := true })
      onServer (Server.execute n sql values)

/-- Sends a statement that controls a transaction. -/
def control (i : Nat) (statement : String) : Action Client Unit := do
  match (← link i).held with
  | some n => onServer (Server.control n statement)
  | none => throw (.connection (.noTransaction statement))

def begin_ (i : Nat) : Action Client Unit := do
  let l ← link i
  if l.held.isNone then
    let n ← acquire l
    Action.update (setLink i { l with held := some n })
  control i "BEGIN"

/-- Ends a transaction; a connection of the pool is given back, whatever happened. -/
def finish (i : Nat) (statement : String) : Action Client Unit := do
  let answer ← (control i statement).attempt
  match (← link i).source with
  | .direct _ => pure ()
  | _ => Action.update (letGo i)
  .ofExcept answer

/-- A new link that holds a connection of the pool, if the link is a pooled one. -/
def pin (i : Nat) : Action Client (Option Nat) := do
  if (← link i).source = .pool then
    let n ← checkout
    let c ← get
    let l : Link := { source := .pinned, held := some n, connected := true }
    set { c with links := c.links ++ [l] }
    pure (some c.links.length)
  else pure none

/-- The adapter of a link. -/
def adapter (i : Nat) : Adapter Client :=
  { dialect := .postgres, driver := "postgres"
    connect := connect i
    disconnect := disconnect i
    begin_ := begin_ i
    commit := finish i "COMMIT"
    rollback := finish i "ROLLBACK"
    query := query i
    release := letGo i }

/-- The connection over the adapter of a link. From a pooled link, a transaction gets a link of
its own. -/
def connection (i : Nat) : Connection Client :=
  { adapter := adapter i
    scope := do pure ((← pin i).map adapter)
    observe := fun _ c => c }

/-! ### Making clients -/

/-- A client that opens a connection at its address when it needs one. -/
def ofAddress (server : Server) : Client := { server, links := [{ source := .direct true }] }

/-- A client over an open connection. -/
def ofConnection (server : Server) (n : Nat) : Client :=
  { server, links := [{ source := .direct false, held := some n, connected := true }] }

/-- A client with a pool. -/
def ofPool (server : Server) : Client :=
  { server, links := [{ source := .pool, connected := true }] }

/-- The client that settings describe. The address must be well-formed. -/
def ofSettings (server : Server) (s : Settings) : Except Fault Client :=
  match Address.settingsOf? s.url, s.maxPoolSize with
  | none, _ => .error (.connection .malformedUrl)
  | some _, none => .ok (ofAddress server)
  | some _, some _ => .ok (ofPool server)

end Client

end ActiveRow.Postgres
