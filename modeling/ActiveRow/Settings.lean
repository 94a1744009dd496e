import ActiveRow.Fault
import ActiveRow.Text.Blank
import ActiveRow.Word

/-!
# Settings

Where and how to connect, read from two variables of the environment: the address of the database,
which must be set, and the number of pooled connections, which may be.
-/

namespace ActiveRow

structure Settings where
  url : String
  /-- Connections are pooled when this is set. -/
  maxPoolSize : Option UInt64 := none
  deriving DecidableEq

namespace Settings

def urlName : String := "DATABASE_URL"

def poolSizeName : String := "DATABASE_MAX_POOL_SIZE"

/-- Reads the number of connections, blanks around it aside. -/
def readPoolSize (text : String) : Except Fault UInt64 :=
  match Decimal.count Word.maxCount (Text.trimChars text.toList) with
  | .ok n => .ok (UInt64.ofNat n)
  | .error reason => .error (.configuration (.poolSize poolSizeName text reason))

/-- The settings in an environment. -/
def ofEnvironment (lookup : String → Option String) : Except Fault Settings := do
  match lookup urlName with
  | none => throw (.configuration (.unset urlName))
  | some url =>
    match lookup poolSizeName with
    | none => pure { url }
    | some text => pure { url, maxPoolSize := some (← readPoolSize text) }

def withPoolSize (s : Settings) (n : UInt64) : Settings := { s with maxPoolSize := some n }

end Settings

end ActiveRow
