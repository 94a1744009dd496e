import ActiveRow.Connection

/-!
# Registries

Named connections, one of which is the default: the one chosen last, or else the one that was added
first.

* `default_add`: adding a connection to a registry that has a default keeps it.
-/

namespace ActiveRow

structure Registry (σ : Type) where
  connections : Keyed (Connection σ)
  /-- The name of the default connection. -/
  chosen : Option String

namespace Registry

variable {σ : Type}

def empty : Registry σ := ⟨.empty, none⟩

/-- Adds a connection, or replaces the one of this name. -/
def add (r : Registry σ) (name : String) (c : Connection σ) : Registry σ :=
  ⟨r.connections.insert name c, r.chosen.or (some name)⟩

theorem default_add {r : Registry σ} {name : String} (h : r.chosen = some name) (n : String)
    (c : Connection σ) : (r.add n c).chosen = some name := by
  simp [add, h]

def connection (r : Registry σ) (name : String) : Except Fault (Connection σ) :=
  match r.connections.get? name with
  | some c => .ok c
  | none => .error (.configuration (.connection name))

/-- Makes a registered connection the default. Gives the outcome and the registry behind it. -/
def choose (r : Registry σ) (name : String) : Except Fault Unit × Registry σ :=
  match r.connection name with
  | .ok _ => (.ok (), { r with chosen := some name })
  | .error cause => (.error cause, r)

def default (r : Registry σ) : Except Fault (Connection σ) :=
  match r.chosen with
  | some name => r.connection name
  | none => .error (.configuration .noConnections)

/-- The names in ascending order. -/
def names (r : Registry σ) : List String := r.connections.keys.mergeSort fun a b => a ≤ b

/-- Disconnects, and gives the fault if that fails. -/
def disconnect (name : String) (c : Connection σ) : Action σ (Option Fault) := do
  match ← c.adapter.disconnect.attempt with
  | .ok () => pure none
  | .error cause =>
    c.report (.disconnectFailed name cause)
    pure (some cause)

/-- Disconnects every connection, whatever fails, and ends with the first fault. -/
def disconnectAll (r : Registry σ) : Action σ Unit := do
  let faults ← r.connections.entries.mapM fun e => disconnect e.1 e.2
  match faults.reduceOption with
  | cause :: _ => throw cause
  | [] => pure ()

end Registry

end ActiveRow
