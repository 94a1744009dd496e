import ActiveRow.Proofs.Binary.Integer
import ActiveRow.Proofs.Json.Formed

/-!
# Regular documents

A regular document is one that a program holds: its integers are words with or without a sign, its
floats are finite, and its objects list their members by name. What is read from a text is regular.

* `isFinite_scale`: gathered digits scaled by a power of ten are finite, or refused.
* `regular_ofText`: what is read is regular.
-/

namespace ActiveRow

open Binary (Format)

namespace Double

/-! ### Finite results -/

theorem isFinite_neg {x : Double} (h : x.isFinite = true) : x.neg.isFinite = true := by
  rw [isFinite, neg, magnitude_ofMagnitude _ x.magnitude_lt]
  exact h

/-- A product is finite unless it is infinite. -/
theorem isFinite_mul {x y : Double} (hx : x.isFinite = true) (hy : y.isFinite = true)
    (h : (mul x y).isInfinite = false) : (mul x y).isFinite = true := by
  have hmul : mul x y = ofQuotient (x.isNegative != y.isNegative)
      (x.units.natAbs * y.units.natAbs) (unitsPerOne * unitsPerOne) := by
    simp [mul, isNaN_of_isFinite, isInfinite_of_isFinite, hx, hy]
  rw [hmul] at h ⊢
  rw [isInfinite, decide_eq_false_iff_not, ofQuotient,
    magnitude_ofMagnitude _ (round_lt _ _)] at h
  exact isFinite_ofQuotient_iff.2 (lt_of_le_of_ne (Format.double.round_le_infinity _ _) h)

/-- A quotient by one or more is finite. -/
theorem isFinite_div {x y : Double} (hx : x.isFinite = true) (hy : y.isFinite = true)
    (hone : unitsPerOne ≤ y.units.natAbs) : (div x y).isFinite = true := by
  have hpos : 0 < y.units.natAbs := lt_of_lt_of_le unitsPerOne_pos hone
  have hzero : y.isZero = false := by
    rw [isZero, decide_eq_false_iff_not]
    intro hzero
    rw [natAbs_units, hzero] at hpos
    exact absurd hpos (by decide)
  have hdiv : div x y =
      ofQuotient (x.isNegative != y.isNegative) x.units.natAbs y.units.natAbs := by
    simp [div, isNaN_of_isFinite, isInfinite_of_isFinite, hx, hy, hzero]
  have hlt : x.magnitude < Format.double.infinity := of_decide_eq_true hx
  rw [hdiv, isFinite_ofQuotient_iff]
  refine lt_of_le_of_lt (Format.double.round_le_of_le hpos hlt.le ?_) hlt
  rw [x.natAbs_units]
  exact Nat.mul_le_mul_left _ hone

end Double

namespace Json

/-! ### Scaled digits -/

/-- The powers of ten that digits are scaled by are finite, and one or more. -/
theorem powerOfTen_spec {n : Nat} (h : n ≤ 308) : (powerOfTen n).isFinite = true ∧
    Double.unitsPerOne ≤ (powerOfTen n).units.natAbs := by
  have hpower : powerOfTen n = Double.ofQuotient false (10 ^ n) 1 := by
    have hlength : ((Nat.repr 1).length : Int) = 1 := by decide
    have hlow : ¬((1 : Int) + n < -400) := by omega
    have hhigh : ¬(400 < (1 : Int) + n) := by omega
    simp [powerOfTen, Decimal.toDouble, hlength, hlow, hhigh]
  have hone : Format.double.units (Format.double.round 1 1) = Double.unitsPerOne := by
    decide +kernel
  have hlargest : Format.double.round (10 ^ 308) 1 < Format.double.infinity := by decide +kernel
  -- the greatest exponent gets a name, so that its power is not evaluated
  generalize 308 = largest at h hlargest
  have hpow : 10 ^ n ≤ 10 ^ largest := Nat.pow_le_pow_right (by omega) h
  have hlt := lt_of_le_of_lt (Format.double.round_mono Nat.one_pos hpow) hlargest
  have hround := Format.double.round_mono Nat.one_pos (Nat.one_le_pow n 10 (by omega))
  refine ⟨by rw [hpower, Double.isFinite_ofQuotient_iff]; exact hlt, ?_⟩
  rw [hpower, Double.natAbs_units, Double.ofQuotient,
    Double.magnitude_ofMagnitude _ (Double.round_lt _ _), ← hone]
  exact Format.double.units_mono hround hlt.le

theorem isFinite_scale {steps : Nat} {x y : Double} {exponent : Int} (hx : x.isFinite = true)
    (h : scale steps x exponent = some y) : y.isFinite = true := by
  induction steps generalizing x exponent with
  | zero =>
    cases h
    exact hx
  | succ steps ih =>
    have hlargest := powerOfTen_spec (le_refl 308)
    unfold scale at h
    split at h
    · rename_i hsmall
      have hpower := powerOfTen_spec hsmall
      split at h
      · dsimp only at h
        split at h
        · cases h
        · cases h
          exact Double.isFinite_mul hx hpower.1 (eq_false_of_ne_true ‹_›)
      · cases h
        exact Double.isFinite_div hx hpower.1 hpower.2
    · split at h
      · cases h
        exact hx
      · split at h
        · cases h
        · exact ih (Double.isFinite_div hx hlargest.1 hlargest.2) h

/-! ### Regular documents -/

mutual

/-- A document of signed and unsigned words and finite floats, with members in ascending order of
their names. -/
def Regular : Json → Prop
  | integer n => -0x8000000000000000 ≤ n ∧ n < 0x10000000000000000
  | float x => x.isFinite = true
  | array items => ItemsRegular items
  | object fields => (Pairs.keys fields).Pairwise (· < ·) ∧ FieldsRegular fields
  | null | bool _ | string _ => True

def ItemsRegular : List Json → Prop
  | [] => True
  | j :: rest => j.Regular ∧ ItemsRegular rest

def FieldsRegular : List (String × Json) → Prop
  | [] => True
  | (_, j) :: rest => j.Regular ∧ FieldsRegular rest

end

theorem itemsRegular_iff (js : List Json) : ItemsRegular js ↔ ∀ j ∈ js, j.Regular := by
  induction js with
  | nil => simp [ItemsRegular]
  | cons j js ih => simp [ItemsRegular, ih]

theorem fieldsRegular_iff (l : List (String × Json)) :
    FieldsRegular l ↔ ∀ e ∈ l, e.2.Regular := by
  induction l with
  | nil => simp [FieldsRegular]
  | cons e l ih => simp [FieldsRegular, ih]

theorem isFinite_ofInt_digits {digits : Nat} (hd : digits ≤ Word.maxCount) :
    (Double.ofInt digits).isFinite = true := by
  have hle : (digits : Int).natAbs ≤ 0x10000000000000000 := by
    unfold Word.maxCount at hd
    omega
  exact (Double.isInt_ofInt hle).1

theorem ofDigits_regular : OfDigits Regular where
  scaled {negative} _ _ _ hd h := by
    obtain ⟨x, hx, rfl⟩ := Option.map_eq_some_iff.1 h
    have hfinite := isFinite_scale (isFinite_ofInt_digits hd) hx
    cases negative with
    | false => exact hfinite
    | true => exact Double.isFinite_neg hfinite
  zero negative := by
    change (Double.ofMagnitude negative 0).isFinite = true
    cases negative <;> decide
  whole negative digits hd := by
    unfold Word.maxCount at hd
    unfold Json.whole
    split
    · split
      · exact Double.isFinite_neg (isFinite_ofInt_digits hd)
      · constructor <;> omega
    · constructor <;> omega

theorem inherited_regular : Inherited Regular where
  null := trivial
  bool _ := trivial
  number := ofDigits_regular.gives_number
  string _ := trivial
  array _ h := (itemsRegular_iff _).2 h
  object _ h :=
    ⟨ascending_sortFields _, (fieldsRegular_iff _).2 fun e he => h e (mem_sortFields he)⟩

/-- **What is read from a text is regular.** -/
theorem regular_ofText {s : String} {j : Json} (h : ofText? s = some j) : j.Regular :=
  inherited_regular.of_text h

end Json

end ActiveRow
