import ActiveRow.Binary.Format
import ActiveRow.Word

/-!
# Double-precision numbers

A double is its 64 bits; what a number means is read off the bits in exact integer arithmetic, so
every operation here can be computed with and reasoned about.

* `sameNumber_comm`: numeric equality is symmetric; no number that `isNaN` equals itself
  (`sameNumber_self_iff`);
* `compareTotal_eq_iff`: the total order identifies equal bits only.
-/

namespace ActiveRow

open Binary (Format)

-- powers are those of core, also beside other instances
attribute [local instance (high)] instPowNat

structure Double where
  bits : UInt64
  deriving DecidableEq

namespace Double

def isNegative (x : Double) : Bool := decide (0x8000000000000000 ≤ x.bits.toNat)

/-- The bits below the sign. -/
def magnitude (x : Double) : Nat := x.bits.toNat % 0x8000000000000000

/-- The double of a sign and a magnitude. -/
def ofMagnitude (negative : Bool) (magnitude : Nat) : Double :=
  ⟨UInt64.ofNat (if negative then 0x8000000000000000 + magnitude else magnitude)⟩

def zero : Double := ⟨0⟩
def nan : Double := ofMagnitude false 0x7FF8000000000000
def infinity (negative : Bool) : Double := ofMagnitude negative Format.double.infinity

instance : Inhabited Double := ⟨zero⟩

def isNaN (x : Double) : Bool := decide (Format.double.infinity < x.magnitude)
def isInfinite (x : Double) : Bool := decide (x.magnitude = Format.double.infinity)
def isFinite (x : Double) : Bool := decide (x.magnitude < Format.double.infinity)
def isZero (x : Double) : Bool := decide (x.magnitude = 0)

/-- The opposite number: the sign bit changes and nothing else. -/
def neg (x : Double) : Double := ofMagnitude (!x.isNegative) x.magnitude

/-- One over the smallest positive double. -/
def unitsPerOne : Nat := 2 ^ Format.double.grain

/-- A finite double as a signed number of smallest doubles. -/
def units (x : Double) : Int :=
  let m : Int := Format.double.units x.magnitude
  if x.isNegative then -m else m

/-- The double nearest to `num / den`, with the given sign. -/
def ofQuotient (negative : Bool) (num den : Nat) : Double :=
  ofMagnitude negative (Format.double.round num den)

/-- The double nearest to an integer. -/
def ofInt (n : Int) : Double := ofQuotient (decide (n < 0)) n.natAbs 1

/-- The integer part of a finite double. -/
def truncate (x : Double) : Int := x.units.tdiv unitsPerOne

/-- Whether a finite double has no fractional part. -/
def isWhole (x : Double) : Bool := x.isFinite && decide (x.units % unitsPerOne = 0)

/-- The whole number nearest to a finite double, a half going away from zero. -/
def nearestWhole (x : Double) : Double :=
  ofQuotient x.isNegative ((x.units.natAbs + unitsPerOne / 2) / unitsPerOne) 1

/-- The signed 64-bit integer nearest to the integer part; zero for a NaN. -/
def toInt64 (x : Double) : Int64 :=
  if x.isNaN then 0
  else if x.isInfinite then Word.clamp (if x.isNegative then -Word.maxCount else Word.maxCount)
  else Word.clamp x.truncate

/-- The count nearest to the integer part; zero for a NaN or a negative number. -/
def toCount (x : Double) : UInt64 :=
  if x.isNaN || x.isNegative then 0
  else if x.isInfinite then Word.saturate Word.maxCount
  else Word.saturate x.truncate.toNat

/-! ### Comparison -/

/-- Numeric equality: the zeros are equal, and a NaN equals nothing. -/
def sameNumber (x y : Double) : Bool :=
  !x.isNaN && !y.isNaN && ((x.isZero && y.isZero) || decide (x = y))

/-- The place of a double in the total order, in which the sign decides first. -/
def totalKey (x : Double) : Int :=
  if x.isNegative then -(x.magnitude : Int) - 1 else x.magnitude

/-- The total order of all bit patterns: negative NaNs, the numbers, positive NaNs. -/
def compareTotal (x y : Double) : Ordering := compare x.totalKey y.totalKey

/-- Whether `x` is below `y` as a number. -/
def less (x y : Double) : Bool :=
  !x.isNaN && !y.isNaN && !(x.isZero && y.isZero) && decide (x.totalKey < y.totalKey)

theorem sameNumber_comm (x y : Double) : sameNumber x y = sameNumber y x := by
  simp only [sameNumber, eq_comm (a := x)]
  cases x.isNaN <;> cases y.isNaN <;> cases x.isZero <;> cases y.isZero <;> rfl

theorem sameNumber_self_iff (x : Double) : sameNumber x x = true ↔ x.isNaN = false := by
  cases h : x.isNaN <;> simp [sameNumber, h]

theorem bits_eq (x : Double) :
    x.bits.toNat = (if x.isNegative then 0x8000000000000000 else 0) + x.magnitude := by
  have h := x.bits.toNat_lt
  simp only [isNegative, magnitude, decide_eq_true_eq]
  split <;> omega

theorem compareTotal_eq_iff (x y : Double) : compareTotal x y = .eq ↔ x = y := by
  constructor
  · intro h
    have hk : x.totalKey = y.totalKey := Std.LawfulEqCmp.eq_of_compare h
    have hx := x.bits_eq
    have hy := y.bits_eq
    have : x.bits.toNat = y.bits.toNat := by
      unfold totalKey at hk
      cases h1 : x.isNegative <;> cases h2 : y.isNegative <;> simp_all <;> omega
    cases x; cases y
    simpa [UInt64.toNat_inj] using this
  · rintro rfl
    simp [compareTotal]

/-! ### Arithmetic, each result rounded once -/

/-- Exact in units, then rounded; the sum of opposite numbers is positive zero. -/
def add (x y : Double) : Double :=
  if x.isNaN || y.isNaN then nan
  else if x.isInfinite then
    if y.isInfinite && x.isNegative != y.isNegative then nan else x
  else if y.isInfinite then y
  else
    let s := x.units + y.units
    if s = 0 then ofMagnitude (x.isNegative && y.isNegative) 0
    else ofQuotient (decide (s < 0)) s.natAbs unitsPerOne

def mul (x y : Double) : Double :=
  let negative := x.isNegative != y.isNegative
  if x.isNaN || y.isNaN then nan
  else if x.isInfinite || y.isInfinite then
    if x.isZero || y.isZero then nan else infinity negative
  else ofQuotient negative (x.units.natAbs * y.units.natAbs) (unitsPerOne * unitsPerOne)

def div (x y : Double) : Double :=
  let negative := x.isNegative != y.isNegative
  if x.isNaN || y.isNaN then nan
  else if x.isInfinite then if y.isInfinite then nan else infinity negative
  else if y.isInfinite then ofMagnitude negative 0
  else if y.isZero then if x.isZero then nan else infinity negative
  else ofQuotient negative x.units.natAbs y.units.natAbs

/-- The lesser number; a NaN gives way to the other operand. -/
def min (x y : Double) : Double :=
  if x.isNaN then y else if y.isNaN then x else if less y x then y else x

/-- The greater number; a NaN gives way to the other operand. -/
def max (x y : Double) : Double :=
  if x.isNaN then y else if y.isNaN then x else if less x y then y else x

end Double

end ActiveRow
