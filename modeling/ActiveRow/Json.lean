import ActiveRow.Decimal.Written
import ActiveRow.Keyed
import ActiveRow.Text.Hex

/-!
# JSON documents

Documents and their compact text. Integers and other numbers are kept apart. Members of an object
are a list; `sortFields` puts them in ascending order of their names, the last of several members
of one name staying.

* `keys_sortFields`: sorting keeps exactly the names.
-/

namespace ActiveRow

inductive Json where
  | null
  | bool (b : Bool)
  | integer (n : Int)
  | float (x : Double)
  | string (s : String)
  | array (items : List Json)
  | object (fields : List (String × Json))

namespace Json

instance : Inhabited Json := ⟨null⟩

/-- Adds a member in the order of names, unless its name is present. -/
def addField (key : String) (value : Json) : List (String × Json) → List (String × Json)
  | [] => [(key, value)]
  | (k, v) :: rest =>
    if key = k then (k, v) :: rest
    else if key < k then (key, value) :: (k, v) :: rest
    else (k, v) :: addField key value rest

/-- Members in ascending order of names; of several of one name the last stays. -/
def sortFields : List (String × Json) → List (String × Json)
  | [] => []
  | (k, v) :: rest => addField k v (sortFields rest)

theorem mem_keys_addField (key k : String) (value : Json) (l : List (String × Json)) :
    k ∈ Pairs.keys (addField key value l) ↔ k = key ∨ k ∈ Pairs.keys l := by
  induction l with
  | nil => simp [addField]
  | cons e l ih =>
    obtain ⟨k', v⟩ := e
    by_cases h : key = k'
    · simp [addField, h]
    · by_cases h2 : key < k' <;> simp [addField, h, h2, ih, or_left_comm]

theorem keys_sortFields (k : String) (l : List (String × Json)) :
    k ∈ Pairs.keys (sortFields l) ↔ k ∈ Pairs.keys l := by
  induction l with
  | nil => rfl
  | cons e l ih => simp [sortFields, mem_keys_addField, ih]

mutual

/-- The document with the members of every object sorted. -/
def sorted : Json → Json
  | null => null
  | bool b => bool b
  | integer n => integer n
  | float x => float x
  | string s => string s
  | array items => array (sortedItems items)
  | object fields => object (sortFields (sortedFields fields))

def sortedItems : List Json → List Json
  | [] => []
  | j :: rest => j.sorted :: sortedItems rest

def sortedFields : List (String × Json) → List (String × Json)
  | [] => []
  | (k, j) :: rest => (k, j.sorted) :: sortedFields rest

end

/-! ### Compact text -/

/-- A character inside a string: quotes, backslashes and control characters are escaped. -/
def escape (c : Char) : List Char :=
  if c = '"' then ['\\', '"']
  else if c = '\\' then ['\\', '\\']
  else if 32 ≤ c.toNat then [c]
  else if c.toNat = 8 then ['\\', 'b']
  else if c.toNat = 12 then ['\\', 'f']
  else if c.toNat = 10 then ['\\', 'n']
  else if c.toNat = 13 then ['\\', 'r']
  else if c.toNat = 9 then ['\\', 't']
  else '\\' :: 'u' :: Hex.digits 4 c.toNat

def quoted (s : String) : String :=
  "\"" ++ String.ofList (s.toList.flatMap escape) ++ "\""

mutual

/-- The text of a document without spaces. -/
def text : Json → String
  | null => "null"
  | bool b => if b then "true" else "false"
  | integer n => Decimal.whole n
  | float x => if x.isFinite then Decimal.documented x else "null"
  | string s => quoted s
  | array items => "[" ++ String.intercalate "," (textItems items) ++ "]"
  | object fields => "\x7b" ++ String.intercalate "," (textFields fields) ++ "\x7d"

def textItems : List Json → List String
  | [] => []
  | j :: rest => j.text :: textItems rest

def textFields : List (String × Json) → List String
  | [] => []
  | (k, j) :: rest => (quoted k ++ ":" ++ j.text) :: textFields rest

end

end Json

end ActiveRow
