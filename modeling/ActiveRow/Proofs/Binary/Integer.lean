import ActiveRow.Binary.Double
import ActiveRow.Proofs.Binary.Rounding

/-!
# Integers as doubles

An integer becomes the double nearest to it: the integer rounded to the bits that the fraction field
holds. Rounding keeps the order of integers, but not that they differ: beyond `2 ^ 53` several
integers become one double. Up to there every integer is kept.

* `totalKey_ofInt_mono`: integers and their doubles are in the same order.
* `isInt_ofInt`: the double of an integer is the rounded integer, `kept`.
* `kept_nearest`: no double is nearer to the integer.
* `kept_of_le`, `ofInt_inj`: integers up to `2 ^ 53` are kept.
-/

namespace ActiveRow

-- powers are those of core, also beside other instances
attribute [local instance (high)] instPowNat

namespace Double

open Binary (Format)

/-! ### Doubles of fields -/

section

variable (negative : Bool) {m : Nat} (h : m < 0x8000000000000000)

include h

theorem toNat_ofMagnitude : (ofMagnitude negative m).bits.toNat =
    (if negative then 0x8000000000000000 else 0) + m := by
  cases negative
  · simp only [ofMagnitude, Bool.false_eq_true, if_false, UInt64.toNat_ofNat']
    omega
  · simp only [ofMagnitude, if_true, UInt64.toNat_ofNat']
    omega

theorem isNegative_ofMagnitude : (ofMagnitude negative m).isNegative = negative := by
  rw [isNegative, toNat_ofMagnitude negative h]
  cases negative
  · simp
    omega
  · simp

theorem magnitude_ofMagnitude : (ofMagnitude negative m).magnitude = m := by
  rw [magnitude, toNat_ofMagnitude negative h]
  cases negative
  · simp
    omega
  · simp
    omega

end

theorem magnitude_lt (x : Double) : x.magnitude < 0x8000000000000000 :=
  Nat.mod_lt _ (by decide)

theorem round_lt (num den : Nat) : Format.double.round num den < 0x8000000000000000 :=
  Nat.lt_of_le_of_lt (Format.double.round_le_infinity num den) (by decide)

/-! ### Finite doubles -/

theorem isNaN_of_isFinite {x : Double} (h : x.isFinite = true) : x.isNaN = false := by
  simp only [isFinite, isNaN, decide_eq_true_eq, decide_eq_false_iff_not] at h ⊢
  omega

theorem isInfinite_of_isFinite {x : Double} (h : x.isFinite = true) : x.isInfinite = false := by
  simp only [isFinite, isInfinite, decide_eq_true_eq, decide_eq_false_iff_not] at h ⊢
  omega

theorem isFinite_ofQuotient_iff {negative : Bool} {num den : Nat} :
    (ofQuotient negative num den).isFinite = true ↔
      Format.double.round num den < Format.double.infinity := by
  rw [isFinite, decide_eq_true_eq, ofQuotient, magnitude_ofMagnitude _ (round_lt _ _)]

theorem natAbs_units (x : Double) : x.units.natAbs = Format.double.units x.magnitude := by
  simp only [units]
  split <;> omega

/-! ### Doubles that are integers -/

/-- The double is finite, and this integer. -/
def IsInt (x : Double) (n : Int) : Prop := x.isFinite = true ∧ x.units = n * unitsPerOne

theorem unitsPerOne_pos : 0 < unitsPerOne := Nat.pow_pos (by decide)

theorem unitsPerOne_ne_zero : (unitsPerOne : Int) ≠ 0 := by
  have h := unitsPerOne_pos
  omega

theorem IsInt.unique {x : Double} {m n : Int} (hm : x.IsInt m) (hn : x.IsInt n) : m = n :=
  Int.eq_of_mul_eq_mul_right unitsPerOne_ne_zero (hm.2.symm.trans hn.2)

theorem IsInt.truncate_eq {x : Double} {n : Int} (h : x.IsInt n) : x.truncate = n := by
  rw [truncate, h.2, Int.mul_tdiv_cancel n unitsPerOne_ne_zero]

theorem isWhole_iff (x : Double) : x.isWhole = true ↔ ∃ n, x.IsInt n := by
  simp only [isWhole, Bool.and_eq_true, decide_eq_true_eq]
  constructor
  · rintro ⟨hf, hu⟩
    exact ⟨x.units / unitsPerOne, hf, (Int.ediv_mul_cancel (Int.dvd_of_emod_eq_zero hu)).symm⟩
  · rintro ⟨n, hf, hu⟩
    exact ⟨hf, by rw [hu, Int.mul_emod_left]⟩

/-- A double that is an integer becomes the word nearest to it. -/
theorem toInt64_of_isInt {x : Double} {n : Int} (h : x.IsInt n) : x.toInt64 = Word.clamp n := by
  simp [toInt64, isNaN_of_isFinite h.1, isInfinite_of_isFinite h.1, h.truncate_eq]

/-- A double that is an integer becomes the count nearest to it, zero for a negative one. -/
theorem toCount_of_isInt {x : Double} {n : Int} (h : x.IsInt n) :
    x.toCount = Word.saturate n.toNat := by
  cases hneg : x.isNegative with
  | false =>
    simp [toCount, isNaN_of_isFinite h.1, isInfinite_of_isFinite h.1, hneg, h.truncate_eq]
  | true =>
    -- the integer is not positive either
    have hunits : n * unitsPerOne ≤ 0 := by
      rw [← h.2, units, if_pos hneg]
      omega
    have hpos : (0 : Int) < unitsPerOne := by
      have h := unitsPerOne_pos
      omega
    have hle : n ≤ 0 :=
      Int.le_of_mul_le_mul_right (Int.le_trans hunits (Int.le_of_eq (Int.zero_mul _).symm)) hpos
    have hzero : x.toCount = 0 := by simp [toCount, hneg]
    rw [hzero, Int.toNat_of_nonpos hle]
    rfl

/-! ### Doubles of integers -/

theorem totalKey_ofInt (n : Int) : (ofInt n).totalKey =
    if n < 0 then -(Format.double.round n.natAbs 1 : Int) - 1
    else Format.double.round n.natAbs 1 := by
  simp [totalKey, ofInt, ofQuotient, isNegative_ofMagnitude, magnitude_ofMagnitude, round_lt]

/-- **Integers and their doubles are in the same order.** -/
theorem totalKey_ofInt_mono {m n : Int} (h : m ≤ n) : (ofInt m).totalKey ≤ (ofInt n).totalKey := by
  rw [totalKey_ofInt, totalKey_ofInt]
  by_cases hm : m < 0
  · by_cases hn : n < 0
    · have hround := Format.double.round_mono Nat.one_pos (show n.natAbs ≤ m.natAbs by omega)
      rw [if_pos hm, if_pos hn]
      omega
    · rw [if_pos hm, if_neg hn]
      omega
  · have hround := Format.double.round_mono Nat.one_pos (show m.natAbs ≤ n.natAbs by omega)
    rw [if_neg hm, if_neg (by omega)]
    omega

/-- An integer rounded to the bits that a double holds. -/
def kept (n : Int) : Int :=
  if n < 0 then -(Format.double.kept n.natAbs : Int) else Format.double.kept n.natAbs

theorem natAbs_kept (n : Int) : (kept n).natAbs = Format.double.kept n.natAbs := by
  unfold kept
  split <;> omega

theorem kept_eq_self_iff {n : Int} :
    kept n = n ↔ 2 ^ Format.double.excess n.natAbs ∣ n.natAbs := by
  rw [← Format.double.kept_eq_self_iff]
  unfold kept
  split <;> omega

/-- **Integers up to `2 ^ 53` are kept.** -/
theorem kept_of_le {n : Int} (h : n.natAbs ≤ 2 ^ (Format.double.fractionBits + 1)) :
    kept n = n := by
  unfold kept
  rw [Format.double.kept_of_le h]
  split <;> omega

/-- **No double is nearer** to an integer than the integer as it is kept. -/
theorem kept_nearest (n : Int) (x : Double) :
    (kept n * unitsPerOne - n * unitsPerOne).natAbs ≤ (x.units - n * unitsPerOne).natAbs := by
  have hnearest := Format.double.kept_nearest (n.natAbs * unitsPerOne) x.magnitude
  have hkept : Format.double.kept (n.natAbs * unitsPerOne) =
      Format.double.kept n.natAbs * unitsPerOne := Format.double.kept_mul_two_pow _ _
  rw [hkept] at hnearest
  -- a double of the other sign is no nearer than its opposite
  simp only [units, kept]
  split
  · have hn : -(n.natAbs : Int) = n := by omega
    rw [← hn, Int.natAbs_neg, Int.natAbs_natCast, Int.neg_mul, Int.neg_mul, ← Int.natCast_mul,
      ← Int.natCast_mul]
    generalize n.natAbs * unitsPerOne = exact at hnearest ⊢
    split <;> omega
  · have hn : (n.natAbs : Int) = n := by omega
    rw [← hn, Int.natAbs_natCast, ← Int.natCast_mul, ← Int.natCast_mul]
    generalize n.natAbs * unitsPerOne = exact at hnearest ⊢
    split <;> omega

/-- Doubles have room for the integers of 64 bits. -/
theorem excess_lt_of_le {n : Nat} (h : n ≤ 0x10000000000000000) :
    Format.double.excess (n * 2 ^ Format.double.grain) + 2 <
      2 ^ Format.double.exponentBits - 1 := by
  have hscaled := Format.double.excess_mul_le n Format.double.grain
  have hexcess := Format.double.excess_mono h
  have hlargest : Format.double.excess 0x10000000000000000 + Format.double.grain + 2 <
      2 ^ Format.double.exponentBits - 1 := by decide +kernel
  omega

/-- **The double of an integer** is the integer as it is kept. -/
theorem isInt_ofInt {n : Int} (h : n.natAbs ≤ 0x10000000000000000) :
    (ofInt n).IsInt (kept n) := by
  have hroom := excess_lt_of_le h
  have hround : Format.double.units (Format.double.round n.natAbs 1) =
      Format.double.kept n.natAbs * unitsPerOne := Format.double.units_round hroom
  constructor
  · exact isFinite_ofQuotient_iff.2 (Format.double.round_lt_infinity hroom)
  · simp only [units, ofInt, ofQuotient, isNegative_ofMagnitude, magnitude_ofMagnitude, round_lt,
      hround, decide_eq_true_eq, Int.natCast_mul, kept]
    split
    · exact (Int.neg_mul _ _).symm
    · rfl

/-- So no two integers up to `2 ^ 53` become one double. -/
theorem ofInt_inj {m n : Int} (hm : m.natAbs ≤ 2 ^ (Format.double.fractionBits + 1))
    (hn : n.natAbs ≤ 2 ^ (Format.double.fractionBits + 1)) (h : ofInt m = ofInt n) : m = n := by
  have hle : 2 ^ (Format.double.fractionBits + 1) ≤ 0x10000000000000000 := by decide
  have hint := isInt_ofInt (Nat.le_trans hm hle)
  rw [h] at hint
  rw [← kept_of_le hm, ← kept_of_le hn]
  exact hint.unique (isInt_ofInt (Nat.le_trans hn hle))

/-- The count out of the double of a word is the word as it is kept. -/
theorem toNat_toCount_ofInt (n : Int64) :
    (ofInt n.toInt).toCount.toNat = (kept n.toInt).toNat := by
  have hlow := n.le_toInt
  have hhigh := n.toInt_lt
  have hle : n.toInt.natAbs ≤ 2 ^ 63 := by omega
  have hkept : (kept n.toInt).natAbs ≤ 2 ^ 63 := by
    rw [natAbs_kept]
    exact Format.double.kept_le_two_pow hle
  rw [toCount_of_isInt (isInt_ofInt (Nat.le_trans hle (by decide))), Word.toNat_saturate]
  exact Nat.min_eq_left (by unfold Word.maxCount; omega)

end Double

end ActiveRow
