import ActiveRow.Keyed
import ActiveRow.Binary.Double
import ActiveRow.Decimal.Literal
import ActiveRow.Text.Blank
import ActiveRow.Timestamp
import ActiveRow.Uuid

/-!
# Values

The values that cells of a row, attributes of a record and parameters of a statement hold. The
members of an object are a list of pairs in the order in which they were first written.
-/

namespace ActiveRow

inductive Value where
  | null
  | bool (b : Bool)
  | int (n : Int64)
  | float (x : Double)
  | text (s : String)
  | uuid (u : Uuid)
  | timestamp (t : Timestamp)
  | array (items : List Value)
  | object (fields : List (String × Value))

/-- Named values in the order in which they were first written. -/
abbrev Attributes := Keyed Value

/-- A row as an adapter returns it. -/
abbrev Row := Attributes

namespace Value

instance : Inhabited Value := ⟨null⟩

def isNull : Value → Bool
  | null => true
  | _ => false

def asBool : Value → Option Bool
  | bool b => some b
  | _ => none

def asInt : Value → Option Int64
  | int n => some n
  | _ => none

/-- The double nearest to a number. -/
def asDouble : Value → Option Double
  | int n => some (Double.ofInt n.toInt)
  | float x => some x
  | _ => none

def asText : Value → Option String
  | text s => some s
  | _ => none

/-- A number as it is, or the number that a text reads as, blanks around it aside. -/
def toNumber : Value → Option Double
  | int n => some (Double.ofInt n.toInt)
  | float x => some x
  | text s => Decimal.double? (Text.trimChars s.toList)
  | _ => none

/-- The name of the kind of a value. -/
def kind : Value → String
  | null => "null"
  | bool _ => "bool"
  | int _ => "int"
  | float _ => "float"
  | text _ => "text"
  | uuid _ => "uuid"
  | timestamp _ => "timestamp"
  | array _ => "array"
  | object _ => "object"

end Value

end ActiveRow
