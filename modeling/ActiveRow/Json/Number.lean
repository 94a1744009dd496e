import ActiveRow.Json
import ActiveRow.Decimal.Literal

/-!
# Reading JSON numbers

The digits of a number are gathered while they fit 64 bits; those past them only scale. A number
without point or exponent is an integer when it fits the signed or the unsigned 64-bit range. Any
other number is the double of the gathered digits times or over one power of ten. Numbers beyond
the range of doubles are refused.
-/

namespace ActiveRow.Json

open Decimal (isDigit digitsValue)

/-- Gathers digits onto `acc` as long as they fit 64 bits. -/
def gather : Nat → List Char → Nat × List Char
  | acc, [] => (acc, [])
  | acc, c :: rest =>
    if isDigit c && acc * 10 + (c.toNat - 48) ≤ Word.maxCount then
      gather (acc * 10 + (c.toNat - 48)) rest
    else (acc, c :: rest)

/-- The double nearest to a power of ten. -/
def powerOfTen (n : Nat) : Double := Decimal.toDouble false 1 n

/-- Gathered digits scaled by a power of ten, in steps of at most 308 places. -/
def scale : Nat → Double → Int → Option Double
  | 0, x, _ => some x
  | steps + 1, x, exponent =>
    if exponent.natAbs ≤ 308 then
      if 0 ≤ exponent then
        let y := Double.mul x (powerOfTen exponent.natAbs)
        if y.isInfinite then none else some y
      else some (Double.div x (powerOfTen exponent.natAbs))
    else if x.isZero then some x
    else if 0 ≤ exponent then none
    else scale steps (Double.div x (powerOfTen 308)) (exponent + 308)

def scaled (negative : Bool) (digits : Nat) (exponent : Int) : Option Json :=
  (scale 4 (Double.ofInt digits) exponent).map fun x => float (if negative then x.neg else x)

/-- Reads what follows the mark of an exponent. -/
def exponentPart (negative : Bool) (digits : Nat) (start : Int) (cs : List Char) :
    Option (Json × List Char) := do
  let (below, cs) := match cs with
    | '+' :: r => (false, r)
    | '-' :: r => (true, r)
    | r => (false, r)
  let ds := cs.takeWhile isDigit
  let rest := cs.dropWhile isDigit
  if ds.isEmpty then none
  let e := digitsValue ds
  if 0x80000000 ≤ e then
    -- the exponent alone decides: out of range upwards, zero downwards
    if digits ≠ 0 ∧ !below then none
    pure (float (Double.ofMagnitude negative 0), rest)
  else
    let j ← scaled negative digits (if below then start - e else start + e)
    pure (j, rest)

/-- Reads an exponent, if one follows. -/
def afterDigits (negative : Bool) (digits : Nat) (exponent : Int) (cs : List Char) :
    Option (Json × List Char) :=
  match cs with
  | 'e' :: r => exponentPart negative digits exponent r
  | 'E' :: r => exponentPart negative digits exponent r
  | r => (scaled negative digits exponent).map fun j => (j, r)

/-- Reads what follows the point: at least one digit. -/
def fractionPart (negative : Bool) (digits : Nat) (exponent : Int) (cs : List Char) :
    Option (Json × List Char) :=
  if (cs.takeWhile isDigit).isEmpty then none
  else
    let (all, rest) := gather digits cs
    let exponent := exponent - (cs.length - rest.length : Nat)
    afterDigits negative all exponent (rest.dropWhile isDigit)

/-- The integer of gathered digits; negative zero and what exceeds 64 bits become doubles. -/
def whole (negative : Bool) (digits : Nat) : Json :=
  if negative then
    if digits = 0 ∨ 0x8000000000000000 < digits then float (Double.ofInt digits).neg
    else integer (-digits)
  else integer digits

/-- Reads a number. -/
def number? (cs : List Char) : Option (Json × List Char) := do
  let (negative, cs) := match cs with
    | '-' :: r => (true, r)
    | r => (false, r)
  let (digits, rest) ← match cs with
    | '0' :: r => if r.head?.any isDigit then none else some (0, r)
    | c :: r => if isDigit c then some (gather (c.toNat - 48) r) else none
    | [] => none
  -- whole digits that found no room raise the exponent
  let past := rest.takeWhile isDigit
  match rest.dropWhile isDigit with
  | '.' :: r => fractionPart negative digits past.length r
  | r =>
    if past.isEmpty ∧ !(r.head?.any fun c => c == 'e' || c == 'E') then
      pure (whole negative digits, r)
    else afterDigits negative digits past.length r

end ActiveRow.Json
