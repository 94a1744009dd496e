import ActiveRow.Fault

/-!
# Events

What a connection reports while it works. An event has a level, a message and named fields.
-/

namespace ActiveRow

inductive StatementKind where
  | select
  | insert
  | update
  | delete
  | statement
  deriving DecidableEq

def StatementKind.name : StatementKind → String
  | select => "select"
  | insert => "insert"
  | update => "update"
  | delete => "delete"
  | statement => "statement"

inductive Level where
  | trace
  | debug
  | warn
  deriving DecidableEq

def Level.name : Level → String
  | trace => "TRACE"
  | debug => "DEBUG"
  | warn => "WARN"

inductive Event where
  /-- A statement is about to be sent. -/
  | dispatching (kind : StatementKind) (sql : String)
  | failed (kind : StatementKind) (cause : Fault)
  | disconnectFailed (connection : String) (cause : Fault)
  | inserted (table : String)
  /-- A relation is about to be loaded for a number of records. -/
  | loading (table relation : String) (parents : Nat)
  | paginated (table : String) (page perPage total : UInt64) (rows : Nat)
  | chunk (table : String) (page : UInt64) (rows : Nat)
  | keyedChunk (table : String) (rows : Nat)

namespace Event

def level : Event → Level
  | dispatching _ _ => .debug
  | failed _ _ | disconnectFailed _ _ => .warn
  | _ => .trace

/-- Whether an event is about a single statement. -/
def concernsStatement : Event → Bool
  | dispatching _ _ | failed _ _ => true
  | _ => false

def message : Event → String
  | dispatching _ _ => "dispatching statement"
  | failed _ _ => "statement failed"
  | disconnectFailed _ _ => "disconnect failed"
  | inserted _ => "model inserted"
  | loading _ _ _ => "eager loading"
  | paginated _ _ _ _ _ => "paginated"
  | chunk _ _ _ => "chunk"
  | keyedChunk _ _ => "chunk by id"

def fields : Event → List (String × String)
  | dispatching kind sql => [("kind", kind.name), ("sql", sql)]
  | failed kind cause => [("kind", kind.name), ("error", cause.message)]
  | disconnectFailed connection cause => [("connection", connection), ("error", cause.message)]
  | inserted table => [("table", table)]
  | loading table relation parents =>
    [("model", table), ("relation", relation), ("parents", Nat.repr parents)]
  | paginated table page perPage total rows =>
    [("model", table), ("page", Nat.repr page.toNat), ("per_page", Nat.repr perPage.toNat),
      ("total", Nat.repr total.toNat), ("rows", Nat.repr rows)]
  | chunk table page rows =>
    [("model", table), ("page", Nat.repr page.toNat), ("rows", Nat.repr rows)]
  | keyedChunk table rows => [("model", table), ("rows", Nat.repr rows)]

end Event

end ActiveRow
