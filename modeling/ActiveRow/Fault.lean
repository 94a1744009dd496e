import ActiveRow.Decimal.Literal
import ActiveRow.Decimal.Written

/-!
# Faults

Everything that can go wrong, by cause, and the text of each. An adapter's own faults carry the
text that it gives.
-/

namespace ActiveRow

open Decimal (NumeralFault)

/-- What is wrong with a request. -/
inductive Invalid where
  | operator (operator : String)
  | rowLength (row values columns : Nat)
  | markers (sql : String) (bindings found : Nat)
  | emptyUpdate
  | joinedUpdate
  | joinedDelete
  | pageSize
  | chunkSize
  | chunkKey (key : String)
  | keyless (table key : String)
  | custom (text : String)
  deriving DecidableEq

/-- What is wrong with the setting of a request. -/
inductive Misconfigured where
  | noTable
  | insertedKey (driver : String)
  | relation (name table : String)
  | connection (name : String)
  | noConnections
  | unset (name : String)
  | poolSize (name text : String) (reason : NumeralFault)
  | custom (text : String)
  deriving DecidableEq

/-- What was not found. -/
inductive Missing where
  | model (table key value : String)
  | row (table : String)
  | stored (table key value : String)
  | table (name : String)
  | custom (text : String)
  deriving DecidableEq

/-- Why there is no connection. -/
inductive Disconnected where
  | released
  | noTransaction (statement : String)
  | unreachable
  | malformedUrl
  | custom (text : String)
  deriving DecidableEq

/-- Why the database has no answer to a statement. -/
inductive Unanswered where
  /-- The database refuses it, with a code. -/
  | refused (code : String)
  | parameterCount (declared given : Nat)
  /-- A value has no form for the type of its parameter. -/
  | parameter (index : Nat)
  | malformed
  deriving DecidableEq

inductive Fault where
  | configuration (cause : Misconfigured)
  | connection (cause : Disconnected)
  | adapter (text : String)
  | query (cause : Unanswered)
  | notFound (cause : Missing)
  | decode (column text : String)
  | validation (cause : Invalid)
  | serialization (text : String)
  | pool (text : String)
  | other (text : String)
  /-- A failure whose transaction could not be rolled back. -/
  | rollback (cause failure : Fault)
  deriving DecidableEq

def Invalid.message : Invalid → String
  | operator op => "invalid operator '" ++ op ++ "'"
  | rowLength row values columns =>
    "insert row " ++ Nat.repr row ++ " has " ++ Nat.repr values ++ " values for " ++
      Nat.repr columns ++ " columns"
  | markers sql bindings found =>
    "raw expression `" ++ sql ++ "` has " ++ Nat.repr bindings ++ " bindings but " ++
      Nat.repr found ++ " placeholders"
  | emptyUpdate => "UPDATE requires at least one column"
  | joinedUpdate => "UPDATE does not support joins"
  | joinedDelete => "DELETE does not support joins"
  | pageSize => "per_page must be greater than zero"
  | chunkSize => "chunk size must be greater than zero"
  | chunkKey key => "chunk_by_id needs '" ++ key ++ "' in the selected columns"
  | keyless table key => table ++ " model has no value for primary key '" ++ key ++ "'"
  | custom text => text

def Misconfigured.message : Misconfigured → String
  | noTable => "no table set on query builder; call from() first"
  | insertedKey driver => driver ++ " adapter does not implement insert_get_id"
  | relation name table => "relation '" ++ name ++ "' is not defined on model " ++ table
  | connection name => "connection '" ++ name ++ "' is not registered"
  | noConnections => "no connections registered"
  | unset name => name ++ " is not set"
  | poolSize name text reason =>
    "invalid " ++ name ++ " '" ++ text ++ "': " ++ reason.message
  | custom text => text

def Missing.message : Missing → String
  | model name key value => name ++ " with " ++ key ++ " = " ++ value ++ " not found"
  | row name => "no " ++ name ++ " row matches the query"
  | stored name key value => name ++ " with " ++ key ++ " = " ++ value ++ " no longer exists"
  | table name => "table '" ++ name ++ "' does not exist"
  | custom text => text

def Disconnected.message : Disconnected → String
  | released => "transaction connection was already released"
  | noTransaction statement => statement ++ " without an open transaction"
  | unreachable => "error connecting to server"
  | malformedUrl => "invalid connection string"
  | custom text => text

def Unanswered.message : Unanswered → String
  | refused _ => "db error"
  | parameterCount declared given =>
    "expected " ++ Nat.repr declared ++ " parameters but got " ++ Nat.repr given
  | parameter index => "error serializing parameter " ++ Nat.repr index
  | malformed => "error parsing response from server"

/-- The code that the database gives. -/
def Unanswered.code? : Unanswered → Option String
  | refused code => some code
  | _ => none

namespace Fault

/-- The name of the kind of a fault. -/
def kind : Fault → String
  | configuration _ => "Configuration"
  | connection _ => "Connection"
  | adapter _ => "Adapter"
  | query _ => "Query"
  | notFound _ => "NotFound"
  | decode _ _ => "Decode"
  | validation _ => "Validation"
  | serialization _ => "Serialization"
  | pool _ => "Pool"
  | other _ => "Other"
  | rollback _ _ => "Other"

def message : Fault → String
  | configuration cause => "Configuration error: " ++ cause.message
  | connection cause => "Connection error: " ++ cause.message
  | adapter text => "Adapter error: " ++ text
  | query cause => "Query error: " ++ cause.message
  | notFound cause => "Not found: " ++ cause.message
  | decode column text => "Decode error on column '" ++ column ++ "': " ++ text
  | validation cause => "Validation error: " ++ cause.message
  | serialization text => "Serialization error: " ++ text
  | pool text => "Pool error: " ++ text
  | other text => text
  | rollback cause failure => cause.message ++ " (rollback failed: " ++ failure.message ++ ")"

def isConfiguration : Fault → Bool
  | configuration _ => true
  | _ => false

def isNotFound : Fault → Bool
  | notFound _ => true
  | _ => false

/-- Whether the fault came out of the database. -/
def isAdapter : Fault → Bool
  | adapter _ | query _ => true
  | _ => false

end Fault

end ActiveRow
