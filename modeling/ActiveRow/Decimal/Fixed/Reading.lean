import ActiveRow.Decimal.Fixed
import ActiveRow.Decimal.Literal

/-!
# Reading fixed-point decimals

A numeral is digits with a decimal point among them, a sign before them and an exponent after them.
Digits for which there is no room are rounded away, but they have to be digits.

* `ofText?_empty`: nothing is no numeral.
-/

namespace ActiveRow.Decimal.Fixed

-- powers are those of core, also beside other instances
attribute [local instance (high)] instPowNat

/-- Rounds by the first digit that is left out. -/
def rounded? (negative : Bool) (coefficient scale digit : Nat) : Option Fixed :=
  if digit < 5 then of? negative coefficient scale
  else if coefficient + 1 < bound then of? negative (coefficient + 1) scale
  else if scale = 0 then none
  else of? negative ((coefficient + 5) / 10) (scale - 1)

/-- Rounds by the digits that are left out, of which the first decides. Underscores may stand
among them, but before the first of them only where they do not end a short coefficient. -/
def cut? (negative short : Bool) (coefficient scale : Nat) (rest : List Char) : Option Fixed :=
  if rest.all fun c => c = '_' || (digit? c).isSome then
    let first := if short then rest.head?.bind digit? else rest.findSome? digit?
    rounded? negative coefficient scale (first.getD 0)
  else none

/-- Coefficients below this bound take one more digit within 64 bits, and 255 to spare. -/
def shortBound : Nat := 0xFFFFFFFFFFFFFFFF / 10 - 0xFF

/-- Reads the rest of a numeral without a sign. `point` and `seen` tell whether the decimal point
and any digit were read. Underscores may follow a digit. -/
def scan? (negative : Bool) : Nat → Nat → Bool → Bool → List Char → Option Fixed
  | n, s, _, seen, [] => if seen then of? negative n s else none
  | n, s, point, seen, c :: rest =>
    match digit? c with
    | some d =>
      if n * 10 + d < bound then
        if point then
          -- the 28th place is the last one
          if s + 1 < 28 then scan? negative (n * 10 + d) (s + 1) true true rest
          else cut? negative (n < shortBound) (n * 10 + d) (s + 1) rest
        else scan? negative (n * 10 + d) s false true rest
      else if point then cut? negative false n s (c :: rest)
      else none
    | none =>
      if c = '.' ∧ !point then scan? negative n s true seen rest
      else if c = '_' ∧ seen then scan? negative n s point seen rest
      else none

/-- Reads a numeral without an exponent. -/
def plain? : List Char → Option Fixed
  | '-' :: rest => scan? true 0 0 false false rest
  | '+' :: rest => scan? false 0 0 false false rest
  | cs => scan? false 0 0 false false cs

/-- Moves the point by an exponent. Places beyond the 28th are rounded away. -/
def shifted? (x : Fixed) (exponent : List Char) : Option Fixed :=
  let limit := 0xFFFFFFFF
  match exponent with
  | '-' :: rest =>
    match count limit rest with
    | .ok e =>
      if 28 < e then none
      else
        let dropped := x.scale + e - 28
        of? x.negative (shorten x.coefficient dropped) (x.scale + e - dropped)
    | .error _ => none
  | cs =>
    match count limit cs with
    | .ok e =>
      if e ≤ x.scale then of? x.negative x.coefficient (x.scale - e)
      else if 28 < e then none
      else of? x.negative (x.coefficient * 10 ^ (e - x.scale)) 0
    | .error _ => none

/-- Reads a numeral. -/
def ofText? (cs : List Char) : Option Fixed :=
  let isMark (c : Char) : Bool := c == 'e' || c == 'E'
  match cs.dropWhile fun c => !isMark c with
  | [] => plain? cs
  | _ :: exponent => (plain? (cs.takeWhile fun c => !isMark c)).bind fun x => x.shifted? exponent

theorem ofText?_empty : ofText? [] = none := rfl

end ActiveRow.Decimal.Fixed
