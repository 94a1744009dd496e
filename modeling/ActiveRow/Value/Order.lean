import ActiveRow.Sorting
import ActiveRow.Value

/-!
# Comparing values

`same` is structural equality: numbers of different kinds differ, a NaN differs from itself, and
objects are equal whatever the order of their members. `compare` orders any two values: first by
kind, integers and floats together, then by content.
-/

namespace ActiveRow.Value

mutual

/-- Structural equality. -/
def same : Value → Value → Bool
  | null, null => true
  | bool a, bool b => a == b
  | int a, int b => a == b
  | float a, float b => Double.sameNumber a b
  | text a, text b => a == b
  | uuid a, uuid b => a == b
  | timestamp a, timestamp b => a == b
  | array a, array b => sameItems a b
  | object a, object b => a.length == b.length && sameFields a b
  | _, _ => false

def sameItems : List Value → List Value → Bool
  | [], [] => true
  | a :: as, b :: bs => same a b && sameItems as bs
  | _, _ => false

/-- Whether every member on the left is one on the right. -/
def sameFields : List (String × Value) → List (String × Value) → Bool
  | [], _ => true
  | (k, a) :: rest, bs =>
    (match Pairs.get? k bs with
      | some b => same a b
      | none => false) && sameFields rest bs

end

/-- The place of a kind in the order; the two kinds of numbers share one. -/
def rank : Value → Nat
  | null => 0
  | bool _ => 1
  | int _ => 2
  | float _ => 2
  | text _ => 3
  | uuid _ => 4
  | timestamp _ => 5
  | array _ => 6
  | object _ => 7

mutual

/-- Kinds by rank; numbers by value, mixed ones as doubles; arrays by their first difference;
objects by their size. -/
def compare : Value → Value → Ordering
  | bool a, bool b => Ord.compare a b
  | int a, int b => Ord.compare a.toInt b.toInt
  | int a, float b => Double.compareTotal (Double.ofInt a.toInt) b
  | float a, int b => Double.compareTotal a (Double.ofInt b.toInt)
  | float a, float b => Double.compareTotal a b
  | text a, text b => Ord.compare a b
  | uuid a, uuid b => Uuid.compare a b
  | timestamp a, timestamp b => Timestamp.compare a b
  | array a, array b => compareItems a b
  | object a, object b => Ord.compare a.length b.length
  | a, b => Ord.compare a.rank b.rank

def compareItems : List Value → List Value → Ordering
  | [], [] => .eq
  | [], _ :: _ => .lt
  | _ :: _, [] => .gt
  | a :: as, b :: bs => (compare a b).then (compareItems as bs)

end

/-- The values in ascending order; equal ones keep their order. -/
def sort (vs : List Value) : List Value := Sorting.sort compare vs

end ActiveRow.Value
