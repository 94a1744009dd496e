import ActiveRow.Json.Reading
import ActiveRow.Timestamp.Written
import ActiveRow.Value

/-!
# Values as JSON documents

`toJson` turns a value into a document with sorted members and `ofJson` a document into a value;
`document` keeps the order of members. Identifiers and moments become strings, floats that are not
finite become null, integers beyond 64 bits become floats. The plain text of a value is its document
for arrays and objects and the bare content for all others.
-/

namespace ActiveRow.Value

mutual

/-- The document of a value, members sorted. -/
def toJson : Value → Json
  | null => .null
  | bool b => .bool b
  | int n => .integer n.toInt
  | float x => if x.isFinite then .float x else .null
  | text s => .string s
  | uuid u => .string u.written
  | timestamp t => .string t.written
  | array items => .array (toJsonItems items)
  | object fields => .object (Json.sortFields (toJsonFields fields))

def toJsonItems : List Value → List Json
  | [] => []
  | v :: rest => v.toJson :: toJsonItems rest

def toJsonFields : List (String × Value) → List (String × Json)
  | [] => []
  | (k, v) :: rest => (k, v.toJson) :: toJsonFields rest

end

mutual

/-- The document of a value, members in their own order. -/
def document : Value → Json
  | null => .null
  | bool b => .bool b
  | int n => .integer n.toInt
  | float x => if x.isFinite then .float x else .null
  | text s => .string s
  | uuid u => .string u.written
  | timestamp t => .string t.written
  | array items => .array (documentItems items)
  | object fields => .object (documentFields fields)

def documentItems : List Value → List Json
  | [] => []
  | v :: rest => v.document :: documentItems rest

def documentFields : List (String × Value) → List (String × Json)
  | [] => []
  | (k, v) :: rest => (k, v.document) :: documentFields rest

end

/-- An integer of a document: an integer when it fits, else the nearest float. -/
def ofInteger (n : Int) : Value :=
  match Word.signed? n with
  | some w => int w
  | none => float (Double.ofInt n)

mutual

/-- The value of a document. -/
def ofJson : Json → Value
  | .null => null
  | .bool b => bool b
  | .integer n => ofInteger n
  | .float x => float x
  | .string s => text s
  | .array items => array (ofJsonItems items)
  | .object fields => object (ofJsonFields fields)

def ofJsonItems : List Json → List Value
  | [] => []
  | j :: rest => ofJson j :: ofJsonItems rest

def ofJsonFields : List (String × Json) → List (String × Value)
  | [] => []
  | (k, j) :: rest => (k, ofJson j) :: ofJsonFields rest

end

/-- The plain text of a value; null has none. -/
def plain : Value → String
  | null => ""
  | bool b => if b then "true" else "false"
  | int n => Decimal.whole n.toInt
  | float x => Decimal.plain x
  | text s => s
  | uuid u => u.written
  | timestamp t => t.written
  | array items => (toJson (array items)).text
  | object fields => (toJson (object fields)).text

end ActiveRow.Value
