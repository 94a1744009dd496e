import ActiveRow.Decimal.Shortest

/-!
# Written forms of numbers

Integers in decimal digits, and two texts of a double over its shortest digits: the plain one,
always positional and without a point for whole numbers, and the one of documents, which keeps a
point and turns to an exponent for large and small magnitudes.
-/

namespace ActiveRow.Decimal

/-- An integer in decimal digits. -/
def whole (n : Int) : String := if n < 0 then "-" ++ Nat.repr n.natAbs else Nat.repr n.natAbs

def zeros (n : Nat) : List Char := List.replicate n '0'

/-- The digits of a number with the point where its exponent puts it. -/
def positional (s : Scientific) : List Char :=
  let ds := (Nat.repr s.digits).toList
  if 0 ≤ s.exponent then ds ++ zeros s.exponent.toNat
  else
    let point : Int := ds.length + s.exponent
    if 0 < point then ds.take point.toNat ++ '.' :: ds.drop point.toNat
    else '0' :: '.' :: zeros (-point).toNat ++ ds

/-- The digits of a number with a point after the first one and an exponent. -/
def exponential (s : Scientific) : List Char :=
  let ds := (Nat.repr s.digits).toList
  let e : Int := ds.length - 1 + s.exponent
  let sign := if e < 0 then '-' else '+'
  let tail := 'e' :: sign :: (Nat.repr e.natAbs).toList
  match ds with
  | d :: f :: rest => d :: '.' :: f :: rest ++ tail
  | _ => ds ++ tail

def signed (x : Double) (cs : List Char) : String :=
  String.ofList (if x.isNegative then '-' :: cs else cs)

/-- The plain text of a double: shortest digits, a tie going up, never an exponent. -/
def plain (x : Double) : String :=
  if x.isNaN then "NaN"
  else if x.isInfinite then signed x ['i', 'n', 'f']
  else if x.isZero then signed x ['0']
  else signed x (positional (shortest .up x))

/-- The text of a finite double in a document: positional with a point when the leading digit
stands between ten to the minus five and ten to the fifteen, else exponential. -/
def documented (x : Double) : String :=
  if x.isZero then signed x ['0', '.', '0']
  else
    let s := shortest .even x
    let e : Int := (Nat.repr s.digits).length - 1 + s.exponent
    if -5 ≤ e ∧ e ≤ 15 then
      signed x (positional s ++ if 0 ≤ s.exponent then ['.', '0'] else [])
    else signed x (exponential s)

end ActiveRow.Decimal
