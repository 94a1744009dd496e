import ActiveRow.Adapter
import ActiveRow.Postgres.Decode

/-!
# Prepared servers

A server that answers from prepared replies and writes down what it saw. A reply declares the types
of parameters and columns; a statement whose values do not fit them never reaches the server.
-/

namespace ActiveRow.Postgres

/-- Where a prepared failure strikes. -/
inductive Stage where
  | preparation
  | execution
  deriving DecidableEq

structure Reply where
  params : List Kind := []
  columns : List (String × Kind) := []
  rows : List (List (Option Bytes)) := []
  /-- The number of rows changed; the number of rows returned, if none is given. -/
  affected : Option UInt64 := none
  failure : Option (String × Stage) := none
  /-- Whether the reply is meant for a statement without values. -/
  simple : Bool := false

inductive Seen where
  | opened (connection : Nat)
  | executed (connection : Nat) (sql : String) (values : List (Option Bytes))
  | prepared (connection : Nat) (sql : String)
  | simple (connection : Nat) (sql : String)

structure Server where
  reachable : Bool := true
  /-- The number of connections opened so far. -/
  opened : Nat := 0
  replies : List Reply := []
  log : List Seen := []

/-- Whether a statement returns rows: by its first word, or by a word for returning columns. -/
def returnsRows (sql : String) : Bool :=
  let head := Text.trimStart sql.toList
  let keyword := Text.upper (String.ofList (head.takeWhile Char.isAlpha))
  ["SELECT", "WITH", "VALUES", "SHOW", "TABLE", "EXPLAIN"].contains keyword ||
    Text.occursIn " RETURNING ".toList (head.map Char.toUpper)

namespace Server

def see (s : Server) (e : Seen) : Server := { s with log := s.log ++ [e] }

/-- Opens a connection and gives its number. -/
def open_ : Action Server Nat := fun s =>
  if s.reachable then
    (.ok (s.opened + 1), { s with opened := s.opened + 1 }.see (.opened (s.opened + 1)))
  else (.error (.connection .unreachable), s)

/-- Takes the next reply. -/
def next : Action Server Reply := fun s =>
  (.ok (s.replies.head?.getD {}), { s with replies := s.replies.tail })

/-- The values of a statement in binary form, one for each parameter. -/
def parameters (kinds : List Kind) (values : List Value) : Except Fault (List (Option Bytes)) :=
  if kinds.length = values.length then
    (kinds.zip values).zipIdx.mapM fun ((kind, value), i) =>
      match encode kind value with
      | .ok bs => .ok bs
      | .error _ => .error (.query (.parameter i))
  else .error (.query (.parameterCount kinds.length values.length))

/-- The row of cells. -/
def row (columns : List (String × Kind)) (cells : List (Option Bytes)) : Except Fault Row := do
  let values ← (columns.zip cells).mapM fun e =>
    match decode? e.1.2 e.2 with
    | some v => .ok (e.1.1, v)
    | none => .error (.decode e.1.1 "error deserializing column")
  pure (Keyed.ofList values)

/-- Prepares a statement, sends it with its values, and reads the answer. -/
def execute (connection : Nat) (sql : String) (values : List Value) : Action Server Output := do
  let reply ← next
  if let some (code, .preparation) := reply.failure then
    Action.update fun s => s.see (.prepared connection sql)
    throw (.query (.refused code))
  let bs ← .ofExcept (parameters reply.params values)
  Action.update fun s => s.see (.executed connection sql bs)
  if let some (code, _) := reply.failure then throw (.query (.refused code))
  if returnsRows sql then
    -- all rows arrive before the first one is read
    if reply.rows.any fun cells => cells.length ≠ reply.columns.length then
      throw (.query .malformed)
    pure (.ofRows (← .ofExcept (reply.rows.mapM (row reply.columns))))
  else pure (.affected (reply.affected.getD (UInt64.ofNat reply.rows.length)))

/-- Sends a statement without values. It takes a reply only if that is meant for it. -/
def control (connection : Nat) (sql : String) : Action Server Unit := do
  Action.update fun s => s.see (.simple connection sql)
  if ((← get).replies.head?.map Reply.simple).getD false then
    let reply ← next
    if let some (code, _) := reply.failure then throw (.query (.refused code))

end Server

end ActiveRow.Postgres
