/-!
# Binary interchange formats

A format is given by the widths of its fraction and exponent fields. Every finite magnitude of a
format is a whole number of its smallest positive value, the *unit* `2 ^ (-grain)`. `units` reads
the fields of a magnitude as that number, `round` gives the fields of the magnitude nearest to a
quotient.

* `roundHalfEven_le`, `le_roundHalfEven`: rounding moves a quotient by half of one at most;
* `roundHalfEven_exact`: a whole quotient stays as it is.
-/

namespace ActiveRow.Binary

-- powers are those of core, also beside other instances
attribute [local instance (high)] instPowNat

/-- The quotient rounded to a whole number, a half going to the even neighbour. -/
def roundHalfEven (num den : Nat) : Nat :=
  let q := num / den
  let r := num % den
  if 2 * r < den then q else if den < 2 * r then q + 1 else q + q % 2

theorem roundHalfEven_exact (q : Nat) {den : Nat} (h : 0 < den) :
    roundHalfEven (q * den) den = q := by
  simp [roundHalfEven, Nat.mul_div_cancel _ h, h]

theorem roundHalfEven_le (num : Nat) {den : Nat} (h : 0 < den) :
    2 * (roundHalfEven num den * den) ≤ 2 * num + den := by
  have e := Nat.div_add_mod num den
  have hr := Nat.mod_lt num h
  have e' : num / den * den + num % den = num := by rw [Nat.mul_comm]; exact e
  unfold roundHalfEven
  simp only
  split
  · omega
  · split
    · rw [Nat.add_mul]; omega
    · rcases Nat.mod_two_eq_zero_or_one (num / den) with h2 | h2 <;>
        rw [h2] <;> simp only [Nat.add_mul] <;> omega

theorem le_roundHalfEven (num : Nat) {den : Nat} (h : 0 < den) :
    2 * num ≤ 2 * (roundHalfEven num den * den) + den := by
  have e := Nat.div_add_mod num den
  have hr := Nat.mod_lt num h
  have e' : num / den * den + num % den = num := by rw [Nat.mul_comm]; exact e
  unfold roundHalfEven
  simp only
  split
  · omega
  · split
    · rw [Nat.add_mul]; omega
    · rcases Nat.mod_two_eq_zero_or_one (num / den) with h2 | h2 <;>
        rw [h2] <;> simp only [Nat.add_mul] <;> omega

/-- The widths of the two fields below the sign. -/
structure Format where
  fractionBits : Nat
  exponentBits : Nat

namespace Format

/-- The 64-bit format. -/
def double : Format := ⟨52, 11⟩

/-- The 32-bit format. -/
def single : Format := ⟨23, 8⟩

variable (f : Format)

/-- The smallest positive value is two to the minus `grain`. -/
def grain : Nat := 2 ^ (f.exponentBits - 1) - 2 + f.fractionBits

/-- The fields of infinity; all greater magnitudes are no numbers. -/
def infinity : Nat := (2 ^ f.exponentBits - 1) * 2 ^ f.fractionBits

/-- The fields of the sign bit alone. -/
def signBit : Nat := 2 ^ (f.exponentBits + f.fractionBits)

/-- A finite magnitude as a number of units. -/
def units (magnitude : Nat) : Nat :=
  let exponent := magnitude / 2 ^ f.fractionBits
  let fraction := magnitude % 2 ^ f.fractionBits
  if exponent = 0 then fraction else (2 ^ f.fractionBits + fraction) * 2 ^ (exponent - 1)

/-- The fields of the magnitude nearest to `num / den`, a tie going to the even one. -/
def round (num den : Nat) : Nat :=
  let n := num * 2 ^ f.grain
  let shift := (n / den).log2 - f.fractionBits
  min f.infinity (shift * 2 ^ f.fractionBits + roundHalfEven n (den * 2 ^ shift))

end Format

end ActiveRow.Binary
