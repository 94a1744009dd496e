import ActiveRow.Binary.Double

/-!
# Single-precision numbers

The conversions between single and double precision. Widening is exact; narrowing rounds once. A
NaN keeps its sign and the leading bits of its payload, with the quiet bit set.
-/

namespace ActiveRow

open Binary (Format)

-- powers are those of core, also beside other instances
attribute [local instance (high)] instPowNat

structure Single where
  bits : UInt32
  deriving DecidableEq

namespace Single

/-- The quiet bit of a NaN and the payload below it. -/
def quiet (fractionBits payload : Nat) : Nat :=
  let top := 2 ^ (fractionBits - 1)
  top + payload % top

def ofMagnitude (negative : Bool) (magnitude : Nat) : Single :=
  ⟨UInt32.ofNat (if negative then 0x80000000 + magnitude else magnitude)⟩

/-- The single nearest to a double. -/
def ofDouble (x : Double) : Single :=
  if x.isNaN then
    ofMagnitude x.isNegative
      (Format.single.infinity + quiet 23 (x.magnitude % 0x10000000000000 / 0x20000000))
  else if x.isInfinite then ofMagnitude x.isNegative Format.single.infinity
  else ofMagnitude x.isNegative (Format.single.round x.units.natAbs Double.unitsPerOne)

/-- The single nearest to an integer. -/
def ofInt (n : Int) : Single :=
  ofMagnitude (decide (n < 0)) (Format.single.round n.natAbs 1)

/-- The double of the same value. -/
def toDouble (x : Single) : Double :=
  let negative := decide (0x80000000 ≤ x.bits.toNat)
  let magnitude := x.bits.toNat % 0x80000000
  if Format.single.infinity < magnitude then
    Double.ofMagnitude negative
      (Format.double.infinity + quiet 52 (magnitude % 0x800000 * 0x20000000))
  else if magnitude = Format.single.infinity then Double.infinity negative
  else Double.ofQuotient negative (Format.single.units magnitude) (2 ^ Format.single.grain)

end Single

end ActiveRow
