import ActiveRow.Binary.Double

/-!
# Fixed-point decimals

Exact decimals: a coefficient below 2^96 over a power of ten, at most the 28th. Sums lose the
decimal places that there is no room for. Decimals are converted from and to doubles.

* `shorten_zero`: a number from which no digit is dropped stays as it is.
-/

namespace ActiveRow.Decimal

-- powers are those of core, also beside other instances
attribute [local instance (high)] instPowNat

/-- Coefficients are below this bound. -/
def Fixed.bound : Nat := 0x1000000000000000000000000

structure Fixed where
  negative : Bool
  coefficient : Nat
  /-- The number of decimal places. -/
  scale : Nat
  coefficient_lt : coefficient < Fixed.bound
  scale_le : scale ≤ 28

namespace Fixed

/-- The decimal of these parts, when they are in range. -/
def of? (negative : Bool) (coefficient scale : Nat) : Option Fixed :=
  if h : coefficient < bound ∧ scale ≤ 28 then some ⟨negative, coefficient, scale, h.1, h.2⟩
  else none

/-- A whole number. -/
def ofInt64 (n : Int64) : Fixed :=
  ⟨decide (n.toInt < 0), n.toInt.natAbs, 0, by
    have := n.le_toInt
    have := n.toInt_lt
    unfold bound
    omega, by omega⟩

/-! ### Decimal places -/

/-- Drops the last `places` digits, a half rounded up. -/
def shorten (coefficient places : Nat) : Nat :=
  (coefficient + 10 ^ places / 2) / 10 ^ places

theorem shorten_zero (coefficient : Nat) : shorten coefficient 0 = coefficient := by
  simp [shorten]

/-- The decimal of a sign and a quotient by a power of ten. As many places are dropped as the
coefficient needs to have room, a half going to the even neighbour. -/
def fit? (negative : Bool) (number scale : Nat) : Option Fixed := do
  let places ← (List.range (scale + 1)).find? fun k => number / 10 ^ k < bound
  let n := Binary.roundHalfEven number (10 ^ places)
  if n < bound then of? negative n (scale - places)
  -- the carry needs one more place
  else if places < scale then of? negative (Binary.roundHalfEven n 10) (scale - places - 1)
  else none

/-- Moves away from zero by a number of the decimal place `place`. -/
def grow? (x : Fixed) (number place : Nat) : Option Fixed :=
  let scale := max x.scale place
  fit? x.negative (x.coefficient * 10 ^ (scale - x.scale) + number * 10 ^ (scale - place)) scale

/-- The nearest decimal with this many places, or with as many as there is room for. -/
def withPlaces? (x : Fixed) (places : Nat) : Option Fixed :=
  if places < x.scale then
    of? x.negative (shorten x.coefficient (x.scale - places)) places
  else
    let room k := x.scale ≤ k && x.coefficient * 10 ^ (k - x.scale) < bound
    let places := ((List.range (min places 28 + 1)).reverse.find? room).getD x.scale
    of? x.negative (x.coefficient * 10 ^ (places - x.scale)) places

/-! ### Doubles -/

/-- A number and the power of ten that it counts. -/
structure Tens where
  number : Nat
  exponent : Int

namespace Tens

/-- Divides by two: by five over ten while there is room, else losing the last bit. -/
def halve (t : Tens) : Tens :=
  if t.number % 2 = 0 then ⟨t.number / 2, t.exponent + 1⟩
  else if t.number * 5 < bound then ⟨t.number * 5, t.exponent⟩
  else ⟨t.number / 2, t.exponent + 1⟩

/-- Drops the last digit. -/
def shorten (t : Tens) : Tens := ⟨Fixed.shorten t.number 1, t.exponent + 1⟩

/-- Drops digits until the exponent is no less than -28; what becomes nothing is zero. -/
def raise : Nat → Tens → Tens
  | 0, t => t
  | fuel + 1, t =>
    if t.exponent < -28 then
      if t.number / 10 = 0 then ⟨0, 0⟩ else raise fuel t.shorten
    else t

/-- Drops decimal places that a double does not determine. -/
def trim : Nat → Tens → Tens
  | 0, t => t
  | fuel + 1, t => if t.exponent < 0 ∧ 0x10000000000000 ≤ t.number then trim fuel t.shorten else t

/-- Drops decimal places that are zero. -/
def strip : Nat → Tens → Tens
  | 0, t => t
  | fuel + 1, t =>
    if t.exponent < 0 ∧ t.number % 10 = 0 then strip fuel ⟨t.number / 10, t.exponent + 1⟩ else t

end Tens

/-- The decimal of about fifteen digits that is nearest to a double, and the double itself where it
is a whole number by its exponent alone. -/
def ofDouble? (x : Double) : Option Fixed :=
  let biased := x.magnitude / 0x10000000000000
  let number := x.magnitude % 0x10000000000000 + (if biased = 0 then 0 else 0x10000000000000)
  if !x.isFinite then none
  else if x.isZero then of? x.isNegative 0 0
  else if 1075 ≤ biased then of? x.isNegative (number * 2 ^ (biased - 1075)) 0
  else
    let places := 1075 - max biased 1
    -- one half at a time, from a number of halves to a number of tens
    let t := Nat.repeat Tens.halve places ⟨number, -places⟩
    let t := t.raise t.exponent.natAbs
    let t := t.trim t.exponent.natAbs
    let t := t.strip t.exponent.natAbs
    of? x.isNegative (t.number * 10 ^ t.exponent.toNat) (-t.exponent).toNat

/-- The double of a decimal. The integer part and the fraction are rounded apart, then their sum,
which is rounded to the places of the decimal again. A whole zero has no sign. -/
def toDouble (x : Fixed) : Double :=
  let unit : Nat := 10 ^ x.scale
  let number (n : Nat) := Double.ofQuotient false n 1
  let whole := number (x.coefficient / unit)
  let fraction := (number (x.coefficient % unit)).div (number unit)
  let y := if fraction.isZero then whole
    else ((whole.add fraction).mul (number unit)).nearestWhole.div (number unit)
  if x.negative ∧ ¬(x.coefficient = 0 ∧ x.scale = 0) then y.neg else y

end Fixed

end ActiveRow.Decimal
