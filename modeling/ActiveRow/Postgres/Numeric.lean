import ActiveRow.Binary.BigEndian
import ActiveRow.Decimal.Fixed

/-!
# Numerics on the wire

A numeric is sent as groups of four decimal digits: their count, the power of 10000 that the first
one counts, the sign, the number of decimal places, and the groups.
-/

namespace ActiveRow.Postgres.Numeric

open Decimal (Fixed)

-- powers are those of core, also beside other instances
attribute [local instance (high)] instPowNat

def negativeSign : Nat := 0x4000

/-- The groups of a number, most significant first; none for zero. -/
def groups : Nat → Nat → List Nat
  | 0, _ => []
  | fuel + 1, n => if n = 0 then [] else groups fuel (n / 10000) ++ [n % 10000]

/-- Drops trailing groups that are zero. -/
def dropZeros (gs : List Nat) : List Nat := (gs.reverse.dropWhile (· = 0)).reverse

/-- The bytes of a numeric. Groups of the fraction that are zero at its end are left out behind an
integer part. -/
def encode (x : Fixed) : List UInt8 :=
  if x.coefficient = 0 then BigEndian.unsigned 8 0
  else
    let fraction := (x.scale + 3) / 4
    let gs := groups 10 (x.coefficient * 10 ^ (4 * fraction - x.scale))
    let whole := gs.length - fraction
    let kept := if whole = 0 then gs else gs.take whole ++ dropZeros (gs.drop whole)
    BigEndian.unsigned 2 kept.length ++ BigEndian.signed 2 ((gs.length : Int) - fraction - 1) ++
      BigEndian.unsigned 2 (if x.negative then negativeSign else 0) ++
      BigEndian.unsigned 2 x.scale ++ kept.flatMap (BigEndian.unsigned 2)

/-- Splits a number of `width` bytes off. -/
def number? (width : Nat) (bs : List UInt8) : Option (Nat × List UInt8) :=
  if width ≤ bs.length then some (BigEndian.toNat (bs.take width), bs.drop width) else none

/-- Splits `count` groups off. -/
def groups? : Nat → List UInt8 → Option (List Nat)
  | 0, _ => some []
  | count + 1, bs => do
    let (g, rest) ← number? 2 bs
    pure (g :: (← groups? count rest))

/-- Adds the groups of the fraction. The first of them ends at the decimal place `place`. A group
beyond the 28th place rounds up from its half on. -/
def addFraction? : Nat → Fixed → List Nat → Option Fixed
  | _, x, [] => some x
  | place, x, g :: rest => do
    let x ← if place ≤ 28 then x.grow? g place
      else if place = 32 ∧ 5000 ≤ g then x.grow? 1 28
      else some x
    addFraction? (place + 4) x rest

/-- The decimal of groups, the first of which counts a power of 10000. Up to seven groups of the
integer part may be left out at its end. -/
def ofGroups? (negative : Bool) (weight : Int) (gs : List Nat) : Option Fixed := do
  let wholes := (weight + 1).toNat
  let missing := wholes - gs.length
  if 8 ≤ missing then none
  let whole := (gs.take wholes).foldl (fun n g => n * 10000 + g) 0
  let x ← Fixed.of? negative (whole * 10 ^ (4 * missing)) 0
  addFraction? (4 * ((-weight).toNat - 1) + 4) x (gs.drop wholes)

/-- The double of the numeric of some bytes. Two bits of the sign tell that it is no number. -/
def decode? (bs : List UInt8) : Option Double := do
  let (count, bs) ← number? 2 bs
  let (weight, bs) ← number? 2 bs
  let (sign, bs) ← number? 2 bs
  let (scale, bs) ← number? 2 bs
  let gs ← groups? count bs
  if 0xC000 ≤ sign then none
  let weight : Int := if weight < 0x8000 then weight else (weight : Int) - 0x10000
  let x ← ofGroups? (sign = negativeSign) weight gs
  (x.withPlaces? scale).map Fixed.toDouble

end ActiveRow.Postgres.Numeric
