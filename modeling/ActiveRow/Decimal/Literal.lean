import ActiveRow.Binary.Double

/-!
# Reading numerals

Integers as an optional sign and ASCII digits, and doubles as decimal literals: an optional sign,
digits with at most one point and at least one digit, an optional exponent; or a name of an
infinity or of the number that is none. A literal gives the double nearest to its exact value.

* `natural_le`: a numeral that is accepted stays within its limit.
-/

namespace ActiveRow.Decimal

-- powers are those of core, also beside other instances
attribute [local instance (high)] instPowNat

/-- Why a text is not an integer. -/
inductive NumeralFault where
  | empty
  | invalidDigit
  | tooLarge
  deriving DecidableEq

namespace NumeralFault

def message : NumeralFault → String
  | empty => "cannot parse integer from empty string"
  | invalidDigit => "invalid digit found in string"
  | tooLarge => "number too large to fit in target type"

end NumeralFault

def digit? (c : Char) : Option Nat :=
  if 48 ≤ c.toNat ∧ c.toNat ≤ 57 then some (c.toNat - 48) else none

/-- Reads digits onto `acc`; the first digit that is none or exceeds the limit decides. -/
def naturalFrom (limit : Nat) : Nat → List Char → Except NumeralFault Nat
  | acc, [] => .ok acc
  | acc, c :: rest =>
    match digit? c with
    | none => .error .invalidDigit
    | some d => if acc * 10 + d ≤ limit then naturalFrom limit (acc * 10 + d) rest
      else .error .tooLarge

/-- Reads one or more digits. -/
def natural (limit : Nat) : List Char → Except NumeralFault Nat
  | [] => .error .invalidDigit
  | cs => naturalFrom limit 0 cs

/-- Reads a count: digits, possibly after a plus. -/
def count (limit : Nat) : List Char → Except NumeralFault Nat
  | [] => .error .empty
  | '+' :: rest => natural limit rest
  | cs => natural limit cs

/-- Reads an integer of `bits` bits: digits, possibly after a sign. -/
def integer (bits : Nat) : List Char → Except NumeralFault Int
  | [] => .error .empty
  | '+' :: rest => (natural (2 ^ (bits - 1) - 1) rest).map Int.ofNat
  | '-' :: rest => (natural (2 ^ (bits - 1)) rest).map fun n => -(Int.ofNat n)
  | cs => (natural (2 ^ (bits - 1) - 1) cs).map Int.ofNat

theorem naturalFrom_le {limit : Nat} : ∀ {cs : List Char} {acc n : Nat}, acc ≤ limit →
    naturalFrom limit acc cs = .ok n → n ≤ limit
  | [], _, _, h, e => by cases e; exact h
  | c :: cs, acc, n, _, e => by
    unfold naturalFrom at e
    split at e
    · cases e
    · split at e
      · exact naturalFrom_le ‹_› e
      · cases e

theorem natural_le {limit n : Nat} {cs : List Char} (h : natural limit cs = .ok n) : n ≤ limit := by
  cases cs with
  | nil => cases h
  | cons c cs => exact naturalFrom_le (Nat.zero_le _) h

/-- A signed 64-bit integer. -/
def int64? (cs : List Char) : Option Int64 :=
  match integer 64 cs with
  | .ok n => some (Int64.ofInt n)
  | .error _ => none

/-- The value of a run of digits. -/
def digitsValue (cs : List Char) : Nat := cs.foldl (fun n c => n * 10 + (c.toNat - 48)) 0

def isDigit (c : Char) : Bool := 48 ≤ c.toNat && c.toNat ≤ 57

/-- The double nearest to `digits * 10 ^ exponent`. Exponents far beyond the range of doubles are
decided by the place of the leading digit. -/
def toDouble (negative : Bool) (digits : Nat) (exponent : Int) : Double :=
  let lead : Int := (Nat.repr digits).length + exponent
  if digits = 0 ∨ lead < -400 then Double.ofMagnitude negative 0
  else if 400 < lead then Double.infinity negative
  else if 0 ≤ exponent then Double.ofQuotient negative (digits * 10 ^ exponent.toNat) 1
  else Double.ofQuotient negative digits (10 ^ (-exponent).toNat)

/-- Reads what follows the mark of an exponent. -/
def exponent? (cs : List Char) : Option Int :=
  let value? (ds : List Char) : Option Int :=
    if ds ≠ [] ∧ ds.all isDigit then some (digitsValue ds) else none
  match cs with
  | '+' :: ds => value? ds
  | '-' :: ds => (value? ds).map fun n => -n
  | ds => value? ds

/-- Reads an unsigned decimal literal. -/
def unsigned? (negative : Bool) (cs : List Char) : Option Double := do
  let whole := cs.takeWhile isDigit
  let rest := cs.dropWhile isDigit
  let (fraction, rest) := match rest with
    | '.' :: r => (r.takeWhile isDigit, r.dropWhile isDigit)
    | r => ([], r)
  if whole.isEmpty && fraction.isEmpty then none
  let e ← match rest with
    | [] => some 0
    | c :: r => if c = 'e' ∨ c = 'E' then exponent? r else none
  pure (toDouble negative (digitsValue (whole ++ fraction)) (e - fraction.length))

/-- Reads a double; letters may have either case. -/
def double? (cs : List Char) : Option Double :=
  let body (negative : Bool) (r : List Char) : Option Double :=
    match unsigned? negative r with
    | some x => some x
    | none =>
      let name := String.ofList (r.map Char.toLower)
      if name = "inf" ∨ name = "infinity" then some (Double.infinity negative)
      else if name = "nan" then some (Double.ofMagnitude negative Double.nan.magnitude)
      else none
  match cs with
  | '+' :: r => body false r
  | '-' :: r => body true r
  | r => body false r

end ActiveRow.Decimal
