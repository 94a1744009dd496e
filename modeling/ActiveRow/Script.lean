import ActiveRow.Connection

/-!
# Scripts

Adapters that answer from prepared replies. Every request takes the next reply of its adapter,
whatever is asked; when none is left, the answer has no rows. All requests are logged in order,
together with the events that connections report. A script carries a state of its user along.

* `log_send`: a request adds one entry to the log, whatever the reply is.
-/

namespace ActiveRow

/-- A request as an adapter received it. -/
structure Sent where
  adapter : String
  sql : String
  bindings : List Value

abbrev Reply := Except Fault Output

structure Script (υ : Type) where
  /-- The replies that each adapter still has. -/
  replies : Keyed (List Reply)
  log : List Sent
  events : List Event
  user : υ

namespace Script

variable {υ : Type}

/-- Nothing prepared and nothing logged. -/
def start (user : υ) : Script υ := ⟨.empty, [], [], user⟩

/-- The replies that an adapter still has. -/
def pending (s : Script υ) (adapter : String) : List Reply := (s.replies.get? adapter).getD []

/-- Replaces the replies of an adapter. -/
def prepare (s : Script υ) (adapter : String) (replies : List Reply) : Script υ :=
  { s with replies := s.replies.insert adapter replies }

/-- Forgets what was logged. -/
def forget (s : Script υ) : Script υ := { s with log := [], events := [] }

def note (e : Event) (s : Script υ) : Script υ := { s with events := s.events ++ [e] }

/-- The reply to the next request of an adapter. -/
def reply (s : Script υ) (adapter : String) : Reply :=
  (s.pending adapter).head?.getD (.ok (.affected 0))

/-- The script after a request. -/
def receive (s : Script υ) (sent : Sent) : Script υ :=
  { s.prepare sent.adapter (s.pending sent.adapter).tail with log := s.log ++ [sent] }

def send (sent : Sent) : Action (Script υ) Output := fun s =>
  (s.reply sent.adapter, s.receive sent)

theorem log_send (sent : Sent) (s : Script υ) :
    ((send sent).from_ s).2.log = s.log ++ [sent] := rfl

/-- A request that is no statement. -/
def signal (adapter request : String) : Action (Script υ) Unit :=
  discard <| send ⟨adapter, request, []⟩

/-- The adapter of this name. -/
def adapter (driver : String) (dialect : Dialect) (name : String) : Adapter (Script υ) :=
  { dialect, driver
    connect := signal name "CONNECT"
    disconnect := signal name "DISCONNECT"
    begin_ := signal name "BEGIN"
    commit := signal name "COMMIT"
    rollback := signal name "ROLLBACK"
    query := fun sql bindings => send ⟨name, sql, bindings⟩ }

/-- The connection over the adapter of this name. Transactions run on the same adapter, or on the
one that `scope` names. -/
def connection (driver : String) (dialect : Dialect) (name : String)
    (scope : Except Fault (Option String)) : Connection (Script υ) :=
  { adapter := adapter driver dialect name
    scope := .ofExcept (scope.map fun n => n.map (adapter driver dialect))
    observe := note }

end Script

end ActiveRow
