import Mathlib.Algebra.Order.Field.Basic
import Mathlib.Data.Rat.Cast.Order
import Mathlib.Tactic.FieldSimp
import Mathlib.Tactic.Positivity
import ActiveRow.Decimal.Literal
import ActiveRow.Proofs.Binary.Integer

/-!
# The double nearest to a number

A number that is not negative has a nearest double, which is infinite from a half step beyond the
largest double on. Digits with an exponent are read as the double nearest to them, also where the
exponent is so large or so small that this is decided without the digits.

* `Double.isFinite_nearest_iff`: the numbers whose nearest double is finite.
* `Decimal.toDouble_eq`: what digits and an exponent are read as.
-/

namespace ActiveRow

-- powers are those of core, also beside other instances
attribute [local instance (high)] instPowNat

/-! ### Overflow and underflow -/

namespace Binary.Format

variable (f : Format) {num den : Nat}

theorem excess_le_of_lt {q top : Nat} (h : q < 2 ^ (f.fractionBits + 1 + top)) :
    f.excess q ≤ top := by
  refine Nat.le_of_not_lt fun hlt => ?_
  have hle := f.two_pow_excess_le (Nat.zero_lt_of_lt hlt)
  have hpow : 2 ^ (f.fractionBits + 1 + top) ≤ 2 ^ (f.excess q + f.fractionBits) :=
    Nat.pow_le_pow_right (by decide) (by omega)
  omega

/-- What is short of a power of two by more than half a cut is not rounded up to it. -/
theorem roundHalfEven_lt {n cut bits : Nat} (hcut : 0 < cut)
    (h : 2 * n + cut < 2 * (2 ^ bits * cut)) : roundHalfEven n cut < 2 ^ bits := by
  have hround := roundHalfEven_le n hcut
  refine Nat.lt_of_mul_lt_mul_right (a := cut) ?_
  omega

/-- **Short of half a step beyond the largest magnitude**, a number is rounded to a finite one. Its
fields are lesser if fewer bits are cut off than from the largest magnitude, and if as many are cut
off it is rounded down. -/
theorem round_lt_infinity_of_lt {top : Nat} (htop : f.infinity = (top + 2) * 2 ^ f.fractionBits)
    (hd : 0 < den)
    (h : 2 * (num * 2 ^ f.grain) < (2 ^ (f.fractionBits + 2) - 1) * (den * 2 ^ top)) :
    f.round num den < f.infinity := by
  let n := num * 2 ^ f.grain
  let cut := den * 2 ^ top
  have hcut : 0 < cut := Nat.mul_pos hd (Nat.two_pow_pos _)
  have hshort : 2 * n + cut < 2 * (2 ^ (f.fractionBits + 1) * cut) := by
    have hhalf : 2 ^ (f.fractionBits + 2) = 2 * 2 ^ (f.fractionBits + 1) := by
      rw [Nat.pow_succ, Nat.mul_comm]
    have hpos : 0 < 2 * 2 ^ (f.fractionBits + 1) := hhalf ▸ Nat.two_pow_pos _
    calc 2 * n + cut < (2 ^ (f.fractionBits + 2) - 1) * cut + cut := Nat.add_lt_add_right h _
      _ = 2 * (2 ^ (f.fractionBits + 1) * cut) := by
        rw [hhalf, Nat.sub_mul, Nat.one_mul, Nat.sub_add_cancel (Nat.le_mul_of_pos_left _ hpos),
          Nat.mul_assoc]
  have hs : f.excess (n / den) ≤ top := by
    refine f.excess_le_of_lt ((Nat.div_lt_iff_lt_mul hd).2 ?_)
    calc n < 2 ^ (f.fractionBits + 1) * cut := by omega
      _ = 2 ^ (f.fractionBits + 1 + top) * den := by
        rw [Nat.pow_add _ _ top, Nat.mul_assoc, Nat.mul_comm (2 ^ top)]
  have hfields : f.fieldsAt n den (f.excess (n / den)) < f.infinity := by
    rcases Nat.lt_or_eq_of_le hs with hlt | heq
    · calc f.fieldsAt n den (f.excess (n / den))
          ≤ (f.excess (n / den) + 2) * 2 ^ f.fractionBits := f.fieldsAt_le hd
        _ < (top + 2) * 2 ^ f.fractionBits :=
          Nat.mul_lt_mul_of_pos_right (by omega) (Nat.two_pow_pos _)
        _ = f.infinity := htop.symm
    · have hinfinity : f.infinity = top * 2 ^ f.fractionBits + 2 ^ (f.fractionBits + 1) := by
        rw [htop, Nat.add_mul, Nat.pow_succ, Nat.mul_comm 2]
      rw [heq, hinfinity]
      exact Nat.add_lt_add_left (roundHalfEven_lt hcut hshort) _
  exact Nat.lt_of_le_of_lt (Nat.min_le_right _ _) hfields

/-- What is less than half a unit is rounded to zero. -/
theorem round_eq_zero (h : 2 * (num * 2 ^ f.grain) < den) : f.round num den = 0 := by
  have hq : num * 2 ^ f.grain / den = 0 := Nat.div_eq_of_lt (by omega)
  have hr : num * 2 ^ f.grain % den = num * 2 ^ f.grain := Nat.mod_eq_of_lt (by omega)
  have hexcess : f.excess 0 = 0 := by simp [excess]
  rw [round_eq, hq, hexcess, fieldsAt, roundHalfEven, Nat.pow_zero, Nat.mul_one, hq, hr, if_pos h]
  simp

/-- Rounding depends on the quotient alone. -/
theorem round_congr {num' den' : Nat} (hd : 0 < den) (hd' : 0 < den')
    (h : num * den' = num' * den) : f.round num den = f.round num' den' := by
  rw [← f.round_mul_right num den hd', h, Nat.mul_comm den, f.round_mul_right num' den' hd]

end Binary.Format

namespace Double

open Binary (Format)

/-- Half a step beyond the largest double. -/
def overflow : Nat := (2 ^ 54 - 1) * 2 ^ 970

theorem round_of_overflow {num den : Nat} (hd : 0 < den) (h : overflow * den ≤ num) :
    Format.double.round num den = Format.double.infinity := by
  have hend : Format.double.round overflow 1 = Format.double.infinity := by decide +kernel
  refine Nat.le_antisymm (Format.double.round_le_infinity num den) ?_
  calc Format.double.infinity = Format.double.round (overflow * den) den := by
        rw [← hend, ← Format.double.round_mul_right overflow 1 hd, Nat.one_mul]
    _ ≤ Format.double.round num den := Format.double.round_mono hd h

theorem round_lt_infinity {num den : Nat} (hd : 0 < den) (h : num < overflow * den) :
    Format.double.round num den < Format.double.infinity := by
  obtain ⟨top, htop, hsteps⟩ : ∃ top : Nat,
      Format.double.infinity = (top + 2) * 2 ^ Format.double.fractionBits ∧
        overflow * (2 * 2 ^ Format.double.grain) =
          (2 ^ (Format.double.fractionBits + 2) - 1) * 2 ^ top := ⟨2045, rfl, by decide +kernel⟩
  have hunits : 0 < 2 * 2 ^ Format.double.grain := by decide +kernel
  refine Format.double.round_lt_infinity_of_lt htop hd ?_
  calc 2 * (num * 2 ^ Format.double.grain) = num * (2 * 2 ^ Format.double.grain) :=
        Nat.mul_left_comm _ _ _
    _ < overflow * den * (2 * 2 ^ Format.double.grain) := Nat.mul_lt_mul_of_pos_right h hunits
    _ = overflow * (2 * 2 ^ Format.double.grain) * den := Nat.mul_right_comm _ _ _
    _ = _ := by rw [hsteps, Nat.mul_assoc, Nat.mul_comm (2 ^ top)]

/-- The double nearest to a number that is not negative, with a sign. -/
def nearest (negative : Bool) (q : ℚ) : Double := ofQuotient negative q.num.natAbs q.den

theorem ofQuotient_eq (negative : Bool) (num : Nat) {den : Nat} (hd : 0 < den) :
    ofQuotient negative num den = nearest negative (num / den) := by
  let q : ℚ := num / den
  have hnum : (q.num.natAbs : ℤ) = q.num := by
    refine Int.natAbs_of_nonneg (Rat.num_nonneg.2 ?_)
    positivity
  have hcross : num * q.den = q.num.natAbs * den := by
    have hden : (den : ℚ) ≠ 0 := by positivity
    have hqden : (q.den : ℚ) ≠ 0 := by positivity
    have heq : (q.num : ℚ) / q.den = num / den := Rat.num_div_den q
    rw [div_eq_div_iff hqden hden, ← hnum] at heq
    exact_mod_cast heq.symm
  rw [nearest, ofQuotient, ofQuotient, Format.double.round_congr hd q.den_pos hcross]

/-- **The numbers whose nearest double is finite** are those short of the overflow. -/
theorem isFinite_nearest_iff {negative : Bool} {q : ℚ} (hq : 0 ≤ q) :
    (nearest negative q).isFinite = true ↔ q < overflow := by
  have hlt : q < overflow ↔ q.num.natAbs < overflow * q.den := by
    have hnum : (q.num.natAbs : ℤ) = q.num := Int.natAbs_of_nonneg (Rat.num_nonneg.2 hq)
    have hden : (0 : ℚ) < q.den := by positivity
    conv_lhs => rw [← Rat.num_div_den q, ← hnum]
    rw [div_lt_iff₀ hden]
    exact_mod_cast Iff.rfl
  rw [nearest, isFinite_ofQuotient_iff, hlt]
  constructor
  · intro h
    by_contra hle
    rw [round_of_overflow q.den_pos (Nat.not_lt.1 hle)] at h
    exact Nat.lt_irrefl _ h
  · exact round_lt_infinity q.den_pos

theorem nearest_of_overflow {negative : Bool} {q : ℚ} (h : overflow ≤ q) :
    nearest negative q = infinity negative := by
  have hnum : (q.num.natAbs : ℤ) = q.num :=
    Int.natAbs_of_nonneg (Rat.num_nonneg.2 (le_trans (Nat.cast_nonneg _) h))
  have hle : overflow * q.den ≤ q.num.natAbs := by
    have hden : (0 : ℚ) < q.den := by positivity
    rw [← Rat.num_div_den q, ← hnum, le_div_iff₀ hden] at h
    exact_mod_cast h
  rw [nearest, ofQuotient, round_of_overflow q.den_pos hle, infinity]

/-! ### Infinities and NaNs -/

variable (negative : Bool)

theorem isFinite_infinity : (infinity negative).isFinite = false := by
  cases negative <;> decide

theorem isFinite_ofMagnitude_nan : (ofMagnitude negative nan.magnitude).isFinite = false := by
  cases negative <;> decide

theorem toInt64_infinity : (infinity negative).toInt64 =
    if negative then Int64.minValue else Int64.maxValue := by
  cases negative <;> decide

theorem toInt64_ofMagnitude_nan : (ofMagnitude negative nan.magnitude).toInt64 = 0 := by
  cases negative <;> decide

end Double

/-! ### Digits with an exponent -/

namespace Decimal

theorem length_repr_pos (n : ℕ) : 0 < (Nat.repr n).length := by
  rw [← String.length_toList, Nat.toList_repr]
  exact Nat.length_toDigits_pos

theorem lt_ten_pow_length (n : ℕ) : n < 10 ^ (Nat.repr n).length :=
  (Nat.length_repr_le_iff (length_repr_pos n)).1 le_rfl

theorem ten_pow_length_le {n : ℕ} (h : n ≠ 0) : 10 ^ ((Nat.repr n).length - 1) ≤ n := by
  by_cases hone : (Nat.repr n).length - 1 = 0
  · rw [hone]
    exact Nat.one_le_iff_ne_zero.2 h
  · refine Nat.le_of_not_lt fun hlt => ?_
    have hle := (Nat.length_repr_le_iff (Nat.pos_of_ne_zero hone)).2 hlt
    omega

/-- Digits with an exponent as a quotient. -/
theorem nearest_digits (negative : Bool) (digits : ℕ) (exponent : ℤ) :
    Double.nearest negative (digits * 10 ^ exponent) =
      if 0 ≤ exponent then .ofQuotient negative (digits * 10 ^ exponent.toNat) 1
      else .ofQuotient negative digits (10 ^ (-exponent).toNat) := by
  split
  · obtain ⟨n, rfl⟩ := Int.eq_ofNat_of_zero_le ‹_›
    rw [Double.ofQuotient_eq negative _ Nat.one_pos, Int.toNat_natCast]
    push_cast
    rw [zpow_natCast, div_one]
  · obtain ⟨n, hn⟩ := Int.eq_ofNat_of_zero_le (show 0 ≤ -exponent by omega)
    have hexponent : exponent = -n := by omega
    rw [Double.ofQuotient_eq negative _ (Nat.pow_pos (by decide)), hexponent, neg_neg,
      Int.toNat_natCast, zpow_neg, zpow_natCast, ← div_eq_mul_inv]
    push_cast
    rfl

/-- Digits that begin far behind the point are rounded to zero. -/
theorem nearest_of_small (negative : Bool) (places : ℕ) {digits : ℕ} {exponent : ℤ}
    (hsmall : 2 * 2 ^ Binary.Format.double.grain ≤ 10 ^ places)
    (h : (Nat.repr digits).length + exponent < -places) :
    Double.nearest negative (digits * 10 ^ exponent) = .ofMagnitude negative 0 := by
  obtain ⟨n, hn⟩ := Int.eq_ofNat_of_zero_le (show 0 ≤ -exponent by omega)
  have hround : Binary.Format.double.round digits (10 ^ n) = 0 := by
    refine Binary.Format.double.round_eq_zero ?_
    calc 2 * (digits * 2 ^ Binary.Format.double.grain)
        = digits * (2 * 2 ^ Binary.Format.double.grain) := Nat.mul_left_comm _ _ _
      _ ≤ digits * 10 ^ places := Nat.mul_le_mul_left _ hsmall
      _ < 10 ^ (Nat.repr digits).length * 10 ^ places :=
          Nat.mul_lt_mul_of_pos_right (lt_ten_pow_length digits) (Nat.pow_pos (by decide))
      _ = 10 ^ ((Nat.repr digits).length + places) := (Nat.pow_add _ _ _).symm
      _ ≤ 10 ^ n := Nat.pow_le_pow_right (by decide) (by omega)
  rw [nearest_digits, if_neg (by omega), hn, Int.toNat_natCast, Double.ofQuotient, hround]

/-- Digits that begin far before the point are rounded to infinity. -/
theorem nearest_of_large (negative : Bool) (places : ℕ) {digits : ℕ} {exponent : ℤ}
    (hdigits : digits ≠ 0) (hlarge : Double.overflow ≤ 10 ^ places)
    (h : places < (Nat.repr digits).length + exponent) :
    Double.nearest negative (digits * 10 ^ exponent) = .infinity negative := by
  have hlead := ten_pow_length_le hdigits
  have hlength := length_repr_pos digits
  rw [nearest_digits]
  split
  · obtain ⟨n, rfl⟩ := Int.eq_ofNat_of_zero_le ‹_›
    rw [Double.ofQuotient, Double.round_of_overflow Nat.one_pos]
    · rfl
    · calc Double.overflow * 1 ≤ 10 ^ places := (Nat.mul_one _).le.trans hlarge
        _ ≤ 10 ^ ((Nat.repr digits).length - 1 + n) :=
            Nat.pow_le_pow_right (by decide) (by omega)
        _ = 10 ^ ((Nat.repr digits).length - 1) * 10 ^ n := Nat.pow_add _ _ _
        _ ≤ digits * 10 ^ n := Nat.mul_le_mul_right _ hlead
  · obtain ⟨n, hn⟩ := Int.eq_ofNat_of_zero_le (show 0 ≤ -exponent by omega)
    rw [hn, Int.toNat_natCast, Double.ofQuotient,
      Double.round_of_overflow (Nat.pow_pos (by decide))]
    · rfl
    · calc Double.overflow * 10 ^ n ≤ 10 ^ places * 10 ^ n := Nat.mul_le_mul_right _ hlarge
        _ = 10 ^ (places + n) := (Nat.pow_add _ _ _).symm
        _ ≤ 10 ^ ((Nat.repr digits).length - 1) := Nat.pow_le_pow_right (by decide) (by omega)
        _ ≤ digits := hlead

/-- **Digits with an exponent** are read as the double nearest to them. -/
theorem toDouble_eq (negative : Bool) (digits : ℕ) (exponent : ℤ) :
    toDouble negative digits exponent = .nearest negative (digits * 10 ^ exponent) := by
  simp only [toDouble]
  split
  · rename_i h
    rcases h with rfl | h
    · have hzero : Binary.Format.double.round 0 1 = 0 :=
        Binary.Format.double.round_eq_zero (by simp)
      rw [Nat.cast_zero, zero_mul]
      exact (congrArg (Double.ofMagnitude negative) hzero).symm
    · exact (nearest_of_small negative 400 (by decide +kernel) h).symm
  · split
    · have hdigits : digits ≠ 0 := by tauto
      exact (nearest_of_large negative 400 hdigits (by decide +kernel) ‹_›).symm
    · rw [nearest_digits]

end Decimal

end ActiveRow
