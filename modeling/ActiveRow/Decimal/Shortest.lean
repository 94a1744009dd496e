import ActiveRow.Binary.Double

/-!
# Shortest decimal digits

The fewest decimal digits that read back as a given double, and of those the nearest to it. The
numbers that round to a double form an interval around it, whose ends belong to it when the
fraction is even. For each count of digits it is enough to test the two neighbours of the double on
the grid of that count.

* `Interval.hit_mem`: a neighbour that is taken lies in the interval.
-/

namespace ActiveRow.Decimal

-- powers are those of core, also beside other instances
attribute [local instance (high)] instPowNat

/-- Which neighbour is taken when the value lies halfway between them. -/
inductive Tie where
  | up
  | even

/-- The neighbour above or below, `d` being the lower one. -/
def Tie.pick : Tie → Nat → Nat
  | .up, d => d + 1
  | .even, d => d + d % 2

theorem Tie.pick_eq (t : Tie) (d : Nat) : t.pick d = d ∨ t.pick d = d + 1 := by
  cases t
  · exact .inr rfl
  · rcases Nat.mod_two_eq_zero_or_one d with h | h <;> simp [pick, h]

/-- The number `digits * 10 ^ exponent`. -/
structure Scientific where
  digits : Nat
  exponent : Int

/-- An interval of quotients around `value / den`. -/
structure Interval where
  low : Nat
  value : Nat
  high : Nat
  den : Nat
  closed : Bool

namespace Interval

/-- Whether `n / den` lies in the interval. -/
def has (i : Interval) (n : Nat) : Bool :=
  if i.closed then decide (i.low ≤ n ∧ n ≤ i.high) else decide (i.low < n ∧ n < i.high)

/-- The interval of the numbers that round to a finite positive double. -/
def ofDouble (x : Double) : Interval :=
  let m := x.magnitude
  let exponent := m / 0x10000000000000
  let u := Binary.Format.double.units m
  let gap := 2 ^ (exponent - 1)
  -- the step down from a power of two is half the step up
  let below := if m % 0x10000000000000 = 0 ∧ 1 < exponent then gap else 2 * gap
  { low := 4 * u - below, value := 4 * u, high := 4 * u + 2 * gap,
    den := 4 * Double.unitsPerOne, closed := m % 2 = 0 }

/-- The interval times ten to the minus `k`. -/
def shift (i : Interval) (k : Int) : Interval :=
  if 0 ≤ k then { i with den := i.den * 10 ^ k.toNat }
  else
    let p := 10 ^ (-k).toNat
    { i with low := i.low * p, value := i.value * p, high := i.high * p }

/-- The whole number in the interval nearest to its value, if one of the two neighbours of the
value is in it. -/
def hit (i : Interval) (tie : Tie) : Option Nat :=
  let d := i.value / i.den
  match i.has (d * i.den), i.has ((d + 1) * i.den) with
  | true, true =>
    let r := 2 * (i.value - d * i.den)
    if r < i.den then some d
    else if i.den < r then some (d + 1)
    else some (tie.pick d)
  | true, false => some d
  | false, true => some (d + 1)
  | false, false => none

theorem hit_mem {i : Interval} {tie : Tie} {n : Nat} (h : i.hit tie = some n) :
    i.has (n * i.den) = true := by
  simp only [hit] at h
  split at h
  · rename_i h1 h2
    split at h
    · cases h; exact h1
    · split at h
      · cases h; exact h2
      · cases h
        rcases tie.pick_eq (i.value / i.den) with e | e <;> rw [e] <;> assumption
  · cases h; assumption
  · cases h; assumption
  · cases h

end Interval

/-- The exponent of the leading digit of `num / den`. -/
def leadingExponent (num den : Nat) : Int :=
  let atLeast (k : Int) : Bool :=
    if 0 ≤ k then decide (den * 10 ^ k.toNat ≤ num) else decide (den ≤ num * 10 ^ (-k).toNat)
  let binary : Int := if den ≤ num then (num / den).log2 else -((den / num).log2 + 1)
  -- the logarithm of two to base ten; the guess misses by one at most
  let guess := binary * 30103 / 100000
  if atLeast (guess + 1) then guess + 1 else if atLeast guess then guess else guess - 1

/-- Moves trailing zeros into the exponent. -/
def Scientific.strip : Nat → Scientific → Scientific
  | 0, s => s
  | n + 1, s => if s.digits % 10 = 0 then strip n ⟨s.digits / 10, s.exponent + 1⟩ else s

/-- The fewest digits that read back as a finite nonzero double, and of those the nearest. -/
def shortest (tie : Tie) (x : Double) : Scientific :=
  let i := Interval.ofDouble x
  let lead := leadingExponent i.value i.den
  let found := (List.range 17).findSome? fun n : Nat =>
    let k := lead - (n : Int)
    ((i.shift k).hit tie).map fun d => (⟨d, k⟩ : Scientific)
  (found.getD ⟨i.value / i.den, 0⟩).strip 20

end ActiveRow.Decimal
