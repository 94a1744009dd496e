import ActiveRow.Model

/-!
# Collections

An ordered list of records of one model, with the operations that select, order, group and fold
them. Operations on keys use the primary key. A key or attribute is identified by the kind and the
plain text of its value; a missing one has an identity of its own.

* `items_filter`, `items_reject`: the two halves of a selection.
-/

namespace ActiveRow

structure Collection where
  model : Model
  items : List Record := []

namespace Collection

instance : Inhabited Collection := ⟨⟨default, []⟩⟩

def size (c : Collection) : Nat := c.items.length

def isEmpty (c : Collection) : Bool := c.items.isEmpty

def push (c : Collection) (r : Record) : Collection := { c with items := c.items ++ [r] }

/-- Changes every record. -/
def mapRecords (c : Collection) (f : Record → Record) : Collection :=
  { c with items := c.items.map f }

def first? (c : Collection) : Option Record := c.items.head?

def last? (c : Collection) : Option Record := c.items.getLast?

def firstWhere? (c : Collection) (p : Record → Bool) : Option Record := c.items.find? p

def lastWhere? (c : Collection) (p : Record → Bool) : Option Record := c.items.reverse.find? p

/-! ### Selection -/

def filter (c : Collection) (p : Record → Bool) : Collection :=
  { c with items := c.items.filter p }

def reject (c : Collection) (p : Record → Bool) : Collection := c.filter fun r => !p r

theorem items_filter (c : Collection) (p : Record → Bool) :
    (c.filter p).items = c.items.filter p := rfl

theorem items_reject (c : Collection) (p : Record → Bool) :
    (c.reject p).items = c.items.filter fun r => !p r := rfl

/-- The identity of a value that may be missing. -/
def identity : Option Value → String
  | some v => v.kind ++ ":" ++ v.plain
  | none => "missing"

/-- Keeps the first record of each name; records without a name stay. -/
def distinctOn (name? : Record → Option String) : List String → List Record → List Record
  | _, [] => []
  | seen, r :: rest =>
    match name? r with
    | none => r :: distinctOn name? seen rest
    | some n =>
      if seen.contains n then distinctOn name? seen rest
      else r :: distinctOn name? (n :: seen) rest

/-- Drops records whose key was seen before; records without a key stay. -/
def unique (c : Collection) : Collection :=
  { c with items := distinctOn (fun r => r.knownKey?.map fun k => identity (some k)) [] c.items }

/-- Drops records whose attribute was seen before; those that miss it count as equal. -/
def uniqueBy (c : Collection) (name : String) : Collection :=
  { c with items := distinctOn (fun r => some (identity (c.model.get? r name))) [] c.items }

def hasKeyAmong (keys : List Value) (r : Record) : Bool :=
  (keys.map fun k => identity (some k)).contains (identity r.key?)

/-- The records whose key is one of `keys`. -/
def whereIn (c : Collection) (keys : List Value) : Collection := c.filter (hasKeyAmong keys)

/-- The records whose key is none of `keys`. -/
def whereNotIn (c : Collection) (keys : List Value) : Collection := c.reject (hasKeyAmong keys)

/-- Another name of `whereIn`. -/
def only (c : Collection) (keys : List Value) : Collection := c.whereIn keys

/-- Another name of `whereNotIn`. -/
def except (c : Collection) (keys : List Value) : Collection := c.whereNotIn keys

def take (c : Collection) (n : Nat) : Collection := { c with items := c.items.take n }

def skip (c : Collection) (n : Nat) : Collection := { c with items := c.items.drop n }

/-- Records that are cut into runs one by one: the runs that are full, and the one that is being
filled. -/
structure Filling where
  full : List (List Record) := []
  current : List Record := []

namespace Filling

/-- Puts a record into the current run, which is full when it holds `size` records. -/
def add (size : Nat) (f : Filling) (r : Record) : Filling :=
  let current := f.current ++ [r]
  if current.length = size then { full := f.full ++ [current] } else { f with current }

/-- All runs. The current one counts unless it is empty. -/
def runs (f : Filling) : List (List Record) :=
  if f.current.isEmpty then f.full else f.full ++ [f.current]

end Filling

/-- The most bytes that room can be made for at once. -/
def roomLimit : Nat := 0x7FFFFFFFFFFFFFFF

/-- The records in runs of `size`, the last one possibly shorter; none when `size` is zero. Room for
a whole run is made before the first record is put in, of `width` bytes for each record, and there
is no result when that is too much. -/
def chunk? (c : Collection) (width size : Nat) : Option (List Collection) :=
  if size = 0 then some []
  else if roomLimit < size * width then none
  else some ((c.items.foldl (Filling.add size) {}).runs.map fun items => { c with items })

/-- The records by the plain text of an attribute, groups in the order in which they appear. -/
def groupBy (c : Collection) (name : String) : Keyed (List Record) :=
  c.items.foldl (fun groups r =>
    let group := ((c.model.get? r name).map Value.plain).getD ""
    groups.insert group ((groups.get? group).getD [] ++ [r])) Keyed.empty

/-! ### Order -/

/-- Sorts by a comparison; records that compare equal keep their order. -/
def sortWith (c : Collection) (cmp : Record → Record → Ordering) : Collection :=
  { c with items := Sorting.sort cmp c.items }

def sortWithDesc (c : Collection) (cmp : Record → Record → Ordering) : Collection :=
  c.sortWith fun a b => cmp b a

/-- Compares an attribute; a missing one counts as null. -/
def compareOn (m : Model) (name : String) (a b : Record) : Ordering :=
  ((m.get? a name).getD .null).compare ((m.get? b name).getD .null)

def sortBy (c : Collection) (name : String) : Collection :=
  c.sortWith (compareOn c.model name)

def sortByDesc (c : Collection) (name : String) : Collection :=
  c.sortWithDesc (compareOn c.model name)

/-! ### Numbers -/

/-- The numbers of an attribute; what is no number counts as zero. -/
def numbers (c : Collection) (name : String) : List Double :=
  c.items.map fun r => ((c.model.get? r name).bind Value.toNumber).getD Double.zero

def sum (c : Collection) (name : String) : Double :=
  (c.numbers name).foldl Double.add Double.zero

/-- The mean; zero for no records. -/
def avg (c : Collection) (name : String) : Double :=
  if c.isEmpty then Double.zero else Double.div (c.sum name) (Double.ofInt c.size)

def fold1? (f : Double → Double → Double) : List Double → Option Double
  | [] => none
  | x :: rest => some (rest.foldl f x)

def min? (c : Collection) (name : String) : Option Double :=
  fold1? Double.min (c.numbers name)

def max? (c : Collection) (name : String) : Option Double :=
  fold1? Double.max (c.numbers name)

/-! ### Look-up -/

/-- The first record of this key. -/
def find? (c : Collection) (key : Value) : Option Record :=
  c.items.find? fun r => r.key?.any fun k => k.same key

def contains (c : Collection) (key : Value) : Bool := (c.find? key).isSome

def containsWhere (c : Collection) (p : Record → Bool) : Bool := c.items.any p

/-- The keys of the records that have one. -/
def keys (c : Collection) : List Value := c.items.filterMap Record.key?

/-- An attribute of every record; a missing one is null. -/
def pluck (c : Collection) (name : String) : List Value :=
  c.items.map fun r => (c.model.get? r name).getD .null

/-! ### Export -/

def objects (c : Collection) : List Attributes := c.items.map c.model.object

def json (c : Collection) : Json := .array (c.items.map c.model.json)

/-- The document of the collection, members in their own order. -/
def document (c : Collection) : Json :=
  .array (c.items.map fun r => (c.model.objectValue r).document)

end Collection

end ActiveRow
