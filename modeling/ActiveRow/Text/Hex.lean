/-!
# Hexadecimal digits

* `digit_value`: a written digit reads back.
-/

namespace ActiveRow.Hex

-- powers are those of core, also beside other instances
attribute [local instance (high)] instPowNat

/-- The value of a hexadecimal digit of either case. -/
def value? (c : Char) : Option Nat :=
  let n := c.toNat
  if 48 ≤ n ∧ n ≤ 57 then some (n - 48)
  else if 97 ≤ n ∧ n ≤ 102 then some (n - 87)
  else if 65 ≤ n ∧ n ≤ 70 then some (n - 55)
  else none

/-- The lower-case digit of a value below sixteen. -/
def digit (n : Nat) : Char := if n < 10 then Char.ofNat (48 + n) else Char.ofNat (87 + n)

theorem digit_value : ∀ n < 16, value? (digit n) = some n := by decide

/-- Reads hexadecimal digits, most significant first. -/
def read? (cs : List Char) : Option Nat :=
  cs.foldl (fun acc c => do let n ← acc; let d ← value? c; pure (n * 16 + d)) (some 0)

/-- The lowest `width` hexadecimal digits of a number, most significant first. -/
def digits (width n : Nat) : List Char :=
  (List.range width).reverse.map fun i => digit (n / 16 ^ i % 16)

end ActiveRow.Hex
