import ActiveRow.Binary.Format

/-!
# Rounding to a format

A magnitude of a format is a number of units with so many bits in front of zeros. A quotient is
rounded to the nearest one. Rounding keeps the order, and keeps what fits.

* `Format.round_mono`: a greater quotient has no lesser fields.
* `Format.kept_nearest`: no magnitude is nearer to a number of units than the rounded number.
* `Format.units_round`: in a format with room for it, a whole number becomes the rounded number.
* `Format.round_units`: a magnitude is rounded to itself, so rounding passes none
  (`Format.round_le_of_le`).
-/

namespace ActiveRow

-- powers are those of core, also beside other instances
attribute [local instance (high)] instPowNat

namespace Binary

/-! ### Rounding a quotient -/

theorem div_le_roundHalfEven (num den : Nat) : num / den ≤ roundHalfEven num den := by
  unfold roundHalfEven
  simp only
  split
  · exact Nat.le_refl _
  · split <;> omega

theorem roundHalfEven_le_succ (num den : Nat) : roundHalfEven num den ≤ num / den + 1 := by
  unfold roundHalfEven
  simp only
  split
  · omega
  · split <;> omega

/-- A greater number is rounded to no lesser one. -/
theorem roundHalfEven_mono {num num' : Nat} (den : Nat) (h : num ≤ num') :
    roundHalfEven num den ≤ roundHalfEven num' den := by
  have hq : num / den ≤ num' / den := Nat.div_le_div_right h
  rcases Nat.eq_or_lt_of_le hq with hq | hq
  · -- between the same whole numbers, the remainders decide
    have hnum := Nat.div_add_mod num den
    have hnum' := Nat.div_add_mod num' den
    have hr : num % den ≤ num' % den := by
      rw [hq] at hnum
      omega
    unfold roundHalfEven
    simp only [hq]
    split <;> split <;> (try split) <;> (try split) <;> omega
  · calc roundHalfEven num den ≤ num / den + 1 := roundHalfEven_le_succ num den
      _ ≤ num' / den := hq
      _ ≤ roundHalfEven num' den := div_le_roundHalfEven num' den

theorem roundHalfEven_le_of_le {num q den : Nat} (hd : 0 < den) (h : num ≤ q * den) :
    roundHalfEven num den ≤ q := by
  have hmono := roundHalfEven_mono den h
  rwa [roundHalfEven_exact q hd] at hmono

theorem le_roundHalfEven_of_le {num q den : Nat} (hd : 0 < den) (h : q * den ≤ num) :
    q ≤ roundHalfEven num den := by
  have hmono := roundHalfEven_mono den h
  rwa [roundHalfEven_exact q hd] at hmono

/-- No whole multiple is nearer to a number than the rounded one. -/
theorem roundHalfEven_nearest (num v : Nat) {den : Nat} (h : 0 < den) :
    ((roundHalfEven num den * den : Nat) - num : Int).natAbs ≤
      ((v * den : Nat) - num : Int).natAbs := by
  have hsplit := Nat.div_add_mod num den
  rw [Nat.mul_comm] at hsplit
  have hr := Nat.mod_lt num h
  have hv : v * den ≤ num / den * den ∨ (num / den + 1) * den ≤ v * den := by
    rcases Nat.lt_or_ge (num / den) v with hlt | hle
    · exact .inr (Nat.mul_le_mul_right den hlt)
    · exact .inl (Nat.mul_le_mul_right den hle)
  have hsucc : (num / den + 1) * den = num / den * den + den := Nat.succ_mul _ _
  unfold roundHalfEven
  simp only
  split
  · omega
  · split
    · omega
    · rcases Nat.mod_two_eq_zero_or_one (num / den) with heven | hodd
      · rw [heven, Nat.add_zero]
        omega
      · rw [hodd]
        omega

/-- Rounding depends on the quotient alone. -/
theorem roundHalfEven_mul_right (num den : Nat) {k : Nat} (h : 0 < k) :
    roundHalfEven (num * k) (den * k) = roundHalfEven num den := by
  have hless : 2 * (num % den * k) < den * k ↔ 2 * (num % den) < den := by
    rw [← Nat.mul_assoc]
    exact Nat.mul_lt_mul_right h
  have hmore : den * k < 2 * (num % den * k) ↔ den < 2 * (num % den) := by
    rw [← Nat.mul_assoc]
    exact Nat.mul_lt_mul_right h
  simp only [roundHalfEven, Nat.mul_div_mul_right _ _ h, Nat.mul_mod_mul_right, hless, hmore]

namespace Format

variable (f : Format)

/-! ### Rounding to a format -/

/-- A number of units over `den`, rounded with so many bits cut off. -/
def fieldsAt (n den shift : Nat) : Nat :=
  shift * 2 ^ f.fractionBits + roundHalfEven n (den * 2 ^ shift)

/-- How many bits of a number of units do not fit into the fraction field. -/
def excess (q : Nat) : Nat := q.log2 - f.fractionBits

theorem round_eq (num den : Nat) : f.round num den =
    min f.infinity (f.fieldsAt (num * 2 ^ f.grain) den
      (f.excess (num * 2 ^ f.grain / den))) := rfl

theorem round_le_infinity (num den : Nat) : f.round num den ≤ f.infinity :=
  Nat.min_le_left _ _

theorem lt_two_pow_excess (q : Nat) : q < 2 ^ (f.excess q + f.fractionBits + 1) := by
  have hlt : q < 2 ^ (q.log2 + 1) := Nat.lt_log2_self
  refine Nat.lt_of_lt_of_le hlt (Nat.pow_le_pow_right (by omega) ?_)
  unfold excess
  omega

theorem two_pow_excess_le {q : Nat} (h : 0 < f.excess q) :
    2 ^ (f.excess q + f.fractionBits) ≤ q := by
  have hq : q ≠ 0 := by
    rintro rfl
    simp [excess] at h
  have hlog : f.excess q + f.fractionBits = q.log2 := by
    unfold excess at h ⊢
    omega
  rw [hlog]
  exact Nat.log2_self_le hq

theorem excess_mono {q q' : Nat} (h : q ≤ q') : f.excess q ≤ f.excess q' := by
  by_cases hq : q = 0
  · subst hq
    simp [excess]
  · have hlog : q.log2 ≤ q'.log2 :=
      (Nat.le_log2 (by omega)).2 (Nat.le_trans (Nat.log2_self_le hq) h)
    unfold excess
    omega

/-- The fields of a number of units exceed no fields that begin with one more bit. -/
theorem fieldsAt_le {n den : Nat} (hd : 0 < den) :
    f.fieldsAt n den (f.excess (n / den)) ≤ (f.excess (n / den) + 2) * 2 ^ f.fractionBits := by
  let s := f.excess (n / den)
  have hn : n ≤ 2 ^ (f.fractionBits + 1) * (den * 2 ^ s) := by
    have hlt : n < 2 ^ (s + f.fractionBits + 1) * den :=
      (Nat.div_lt_iff_lt_mul hd).1 (f.lt_two_pow_excess (n / den))
    have heq : 2 ^ (s + f.fractionBits + 1) * den = 2 ^ (f.fractionBits + 1) * (den * 2 ^ s) := by
      rw [Nat.add_assoc, Nat.pow_add]
      ac_rfl
    omega
  have hround := roundHalfEven_le_of_le (Nat.mul_pos hd (Nat.two_pow_pos s)) hn
  have hsum : (s + 2) * 2 ^ f.fractionBits = s * 2 ^ f.fractionBits + 2 ^ (f.fractionBits + 1) := by
    rw [Nat.add_mul, Nat.pow_succ, Nat.mul_comm 2]
  change s * 2 ^ f.fractionBits + roundHalfEven n (den * 2 ^ s) ≤ (s + 2) * 2 ^ f.fractionBits
  omega

theorem le_fieldsAt {n den : Nat} (hd : 0 < den) (hs : 0 < f.excess (n / den)) :
    (f.excess (n / den) + 1) * 2 ^ f.fractionBits ≤ f.fieldsAt n den (f.excess (n / den)) := by
  let s := f.excess (n / den)
  have hn : 2 ^ f.fractionBits * (den * 2 ^ s) ≤ n := by
    have hle : 2 ^ (s + f.fractionBits) * den ≤ n :=
      (Nat.le_div_iff_mul_le hd).1 (f.two_pow_excess_le hs)
    have heq : 2 ^ (s + f.fractionBits) * den = 2 ^ f.fractionBits * (den * 2 ^ s) := by
      rw [Nat.pow_add]
      ac_rfl
    omega
  have hround := le_roundHalfEven_of_le (Nat.mul_pos hd (Nat.two_pow_pos s)) hn
  have hsum : (s + 1) * 2 ^ f.fractionBits = s * 2 ^ f.fractionBits + 2 ^ f.fractionBits := by
    rw [Nat.add_mul, Nat.one_mul]
  change (s + 1) * 2 ^ f.fractionBits ≤ s * 2 ^ f.fractionBits + roundHalfEven n (den * 2 ^ s)
  omega

/-- **Rounding keeps the order.** -/
theorem round_mono {num num' den : Nat} (hd : 0 < den) (h : num ≤ num') :
    f.round num den ≤ f.round num' den := by
  let n := num * 2 ^ f.grain
  let n' := num' * 2 ^ f.grain
  have hn : n ≤ n' := Nat.mul_le_mul_right _ h
  have hs : f.excess (n / den) ≤ f.excess (n' / den) := f.excess_mono (Nat.div_le_div_right hn)
  have hfields :
      f.fieldsAt n den (f.excess (n / den)) ≤ f.fieldsAt n' den (f.excess (n' / den)) := by
    rcases Nat.eq_or_lt_of_le hs with hs | hs
    · rw [hs]
      exact Nat.add_le_add_left (roundHalfEven_mono _ hn) _
    · -- more bits are cut off, so the greater number begins with a greater bit
      calc f.fieldsAt n den (f.excess (n / den))
          ≤ (f.excess (n / den) + 2) * 2 ^ f.fractionBits := f.fieldsAt_le hd
        _ ≤ (f.excess (n' / den) + 1) * 2 ^ f.fractionBits := Nat.mul_le_mul_right _ (by omega)
        _ ≤ f.fieldsAt n' den (f.excess (n' / den)) := f.le_fieldsAt hd (by omega)
  rw [round_eq, round_eq]
  exact Nat.le_min.2 ⟨Nat.min_le_left _ _, Nat.le_trans (Nat.min_le_right _ _) hfields⟩

/-! ### What a format keeps -/

/-- Fields that do not fit into the fraction count units of twice the size for each further bit. -/
theorem units_fields {q : Nat} (s : Nat) (hq : 2 ^ f.fractionBits ≤ q)
    (hq' : q < 2 ^ (f.fractionBits + 1)) : f.units (s * 2 ^ f.fractionBits + q) = q * 2 ^ s := by
  have hpos : 0 < 2 ^ f.fractionBits := Nat.two_pow_pos _
  have hsplit : s * 2 ^ f.fractionBits + q =
      (q - 2 ^ f.fractionBits) + (s + 1) * 2 ^ f.fractionBits := by
    rw [Nat.add_mul, Nat.one_mul]
    omega
  have hlt : q - 2 ^ f.fractionBits < 2 ^ f.fractionBits := by
    rw [Nat.pow_succ] at hq'
    omega
  have hexponent : (s * 2 ^ f.fractionBits + q) / 2 ^ f.fractionBits = s + 1 := by
    rw [hsplit, Nat.add_mul_div_right _ _ hpos, Nat.div_eq_of_lt hlt, Nat.zero_add]
  have hfraction : (s * 2 ^ f.fractionBits + q) % 2 ^ f.fractionBits = q - 2 ^ f.fractionBits := by
    rw [hsplit, Nat.add_mul_mod_self_right, Nat.mod_eq_of_lt hlt]
  have hwhole : 2 ^ f.fractionBits + (q - 2 ^ f.fractionBits) = q := by omega
  simp only [units, hexponent, hfraction, hwhole, Nat.add_one_ne_zero, if_false, Nat.add_sub_cancel]

/-- A whole number rounded to the bits that the fraction field holds. -/
def kept (n : Nat) : Nat := roundHalfEven n (2 ^ f.excess n) * 2 ^ f.excess n

/-- A whole number is kept as it is, exactly when the bits that do not fit are zeros. -/
theorem kept_eq_self_iff {n : Nat} : f.kept n = n ↔ 2 ^ f.excess n ∣ n := by
  constructor
  · intro h
    exact ⟨roundHalfEven n (2 ^ f.excess n), by rw [Nat.mul_comm]; exact h.symm⟩
  · rintro ⟨q, hq⟩
    have hround : roundHalfEven n (2 ^ f.excess n) = q := by
      conv => lhs; arg 1; rw [hq, Nat.mul_comm]
      exact roundHalfEven_exact q (Nat.two_pow_pos _)
    rw [kept, hround, Nat.mul_comm]
    exact hq.symm

theorem excess_eq_zero {n : Nat} (h : n < 2 ^ (f.fractionBits + 1)) : f.excess n = 0 := by
  by_cases hn : n = 0
  · simp [excess, hn]
  · have hlog := (Nat.log2_lt hn).2 h
    unfold excess
    omega

/-- What the fraction field can hold is kept. -/
theorem kept_of_le {n : Nat} (h : n ≤ 2 ^ (f.fractionBits + 1)) : f.kept n = n := by
  rw [kept_eq_self_iff]
  rcases Nat.eq_or_lt_of_le h with rfl | h
  · exact Nat.pow_dvd_pow 2 (by rw [excess, Nat.log2_two_pow]; omega)
  · rw [f.excess_eq_zero h]
    exact Nat.one_dvd n

/-- Rounding does not pass a power of two. -/
theorem kept_le_two_pow {n k : Nat} (h : n ≤ 2 ^ k) : f.kept n ≤ 2 ^ k := by
  have hexcess : f.excess n ≤ k := by
    have hmono := f.excess_mono h
    have hpower : f.excess (2 ^ k) = k - f.fractionBits := by rw [excess, Nat.log2_two_pow]
    omega
  have hsplit : 2 ^ k = 2 ^ (k - f.excess n) * 2 ^ f.excess n := by
    rw [← Nat.pow_add, Nat.sub_add_cancel hexcess]
  rw [hsplit] at h ⊢
  exact Nat.mul_le_mul_right _ (roundHalfEven_le_of_le (Nat.two_pow_pos _) h)

theorem log2_mul_two_pow {n : Nat} (hn : n ≠ 0) (k : Nat) : (n * 2 ^ k).log2 = n.log2 + k := by
  have hpos := Nat.two_pow_pos k
  rw [Nat.log2_eq_iff (Nat.mul_ne_zero hn (Nat.ne_of_gt hpos)), Nat.pow_add,
    Nat.add_right_comm, Nat.pow_add]
  exact ⟨Nat.mul_le_mul_right _ (Nat.log2_self_le hn),
    Nat.mul_lt_mul_of_pos_right Nat.lt_log2_self hpos⟩

theorem excess_mul_le (n k : Nat) : f.excess (n * 2 ^ k) ≤ f.excess n + k := by
  by_cases hn : n = 0
  · simp [excess, hn]
  · rw [excess, excess, log2_mul_two_pow hn]
    omega

/-- Which bits are kept does not depend on the size of the unit. -/
theorem kept_mul_two_pow (n k : Nat) : f.kept (n * 2 ^ k) = f.kept n * 2 ^ k := by
  by_cases hn : f.excess n = 0
  · -- all bits of the number fit, and the zeros behind them are all that may not
    have hself : f.kept n = n := f.kept_eq_self_iff.2 (by simp [hn])
    have hle := f.excess_mul_le n k
    rw [hself, kept_eq_self_iff]
    exact Nat.dvd_trans (Nat.pow_dvd_pow 2 (by omega)) (Nat.dvd_mul_left _ _)
  · have hzero : n ≠ 0 := by
      rintro rfl
      simp [excess] at hn
    have hexcess : f.excess (n * 2 ^ k) = f.excess n + k := by
      rw [excess, excess, log2_mul_two_pow hzero]
      unfold excess at hn
      omega
    rw [kept, kept, hexcess, Nat.pow_add, roundHalfEven_mul_right _ _ (Nat.two_pow_pos k),
      Nat.mul_assoc]

/-- The fields of a number of units are those of the number as it is kept. -/
theorem units_fieldsAt (n : Nat) : f.units (f.fieldsAt n 1 (f.excess n)) = f.kept n := by
  unfold fieldsAt kept
  rw [Nat.one_mul]
  generalize hs : f.excess n = s
  have hle : roundHalfEven n (2 ^ s) ≤ 2 ^ (f.fractionBits + 1) := by
    refine roundHalfEven_le_of_le (Nat.two_pow_pos s) ?_
    have hn := f.lt_two_pow_excess n
    rw [hs, Nat.add_assoc, Nat.add_comm, Nat.pow_add] at hn
    exact Nat.le_of_lt hn
  by_cases hlow : 2 ^ f.fractionBits ≤ roundHalfEven n (2 ^ s)
  · rcases Nat.eq_or_lt_of_le hle with hcarry | hlt
    · -- rounded up to one more bit, which counts units of twice the size
      have hpos := Nat.two_pow_pos f.fractionBits
      have hfields := f.units_fields (s + 1) (Nat.le_refl (2 ^ f.fractionBits))
        (by rw [Nat.pow_succ]; omega)
      have hsum : s * 2 ^ f.fractionBits + 2 ^ (f.fractionBits + 1) =
          (s + 1) * 2 ^ f.fractionBits + 2 ^ f.fractionBits := by
        rw [Nat.add_mul, Nat.pow_succ]
        omega
      rw [hcarry, hsum, hfields, Nat.pow_succ, Nat.pow_succ]
      ac_rfl
    · exact f.units_fields s hlow hlt
  · -- a short fraction has no bits to cut off
    have hzero : s = 0 := Nat.eq_zero_of_not_pos fun hpos => by
      have hn := f.two_pow_excess_le (hs ▸ hpos)
      rw [hs, Nat.add_comm, Nat.pow_add] at hn
      exact hlow (le_roundHalfEven_of_le (Nat.two_pow_pos s) hn)
    have hsmall := Nat.lt_of_not_le hlow
    rw [hzero] at hsmall ⊢
    simp only [Nat.zero_mul, Nat.zero_add, Nat.pow_zero, Nat.mul_one, units,
      Nat.div_eq_of_lt hsmall, Nat.mod_eq_of_lt hsmall, if_true]

/-- A magnitude that is no less than a number with bits cut off is a multiple of the same power. -/
theorem two_pow_dvd_units {s m : Nat} (h : 2 ^ (s + f.fractionBits) ≤ f.units m) :
    2 ^ s ∣ f.units m := by
  have hfraction : m % 2 ^ f.fractionBits < 2 ^ f.fractionBits := Nat.mod_lt _ (Nat.two_pow_pos _)
  unfold units at h ⊢
  simp only at h ⊢
  split at h
  · have hle : 2 ^ f.fractionBits ≤ 2 ^ (s + f.fractionBits) :=
      Nat.pow_le_pow_right (by omega) (by omega)
    omega
  · rename_i hexponent
    rw [if_neg hexponent]
    generalize m / 2 ^ f.fractionBits = e at h hexponent ⊢
    have hlt : 2 ^ (s + f.fractionBits) < 2 ^ (e + f.fractionBits) :=
      calc 2 ^ (s + f.fractionBits)
          ≤ (2 ^ f.fractionBits + m % 2 ^ f.fractionBits) * 2 ^ (e - 1) := h
        _ < 2 ^ (f.fractionBits + 1) * 2 ^ (e - 1) :=
            Nat.mul_lt_mul_of_pos_right (by rw [Nat.pow_succ]; omega) (Nat.two_pow_pos _)
        _ = 2 ^ (e + f.fractionBits) := by
            rw [← Nat.pow_add]
            congr 1
            omega
    have hs := (Nat.pow_lt_pow_iff_right (by omega)).1 hlt
    exact Nat.dvd_trans (Nat.pow_dvd_pow 2 (by omega)) (Nat.dvd_mul_left _ _)

/-- **No magnitude is nearer** to a number of units than the number as it is kept. -/
theorem kept_nearest (n m : Nat) :
    ((f.kept n : Int) - n).natAbs ≤ ((f.units m : Int) - n).natAbs := by
  have hnearest (v : Nat) := roundHalfEven_nearest n v (Nat.two_pow_pos (f.excess n))
  by_cases hm : 2 ^ (f.excess n + f.fractionBits) ≤ f.units m
  · obtain ⟨v, hv⟩ := f.two_pow_dvd_units hm
    rw [hv, Nat.mul_comm]
    exact hnearest v
  · by_cases hs : f.excess n = 0
    · rw [f.kept_eq_self_iff.2 (by simp [hs])]
      omega
    · -- a lesser power of two is kept, and is between the magnitude and the number
      have hn := f.two_pow_excess_le (Nat.pos_of_ne_zero hs)
      have hpower := hnearest (2 ^ f.fractionBits)
      rw [← Nat.pow_add, Nat.add_comm] at hpower
      change ((f.kept n : Int) - n).natAbs ≤ _ at hpower
      omega

/-! ### Whole numbers in a format with room for them -/

section

variable {num : Nat} (hroom : f.excess (num * 2 ^ f.grain) + 2 < 2 ^ f.exponentBits - 1)

include hroom

theorem fieldsAt_lt_infinity :
    f.fieldsAt (num * 2 ^ f.grain) 1 (f.excess (num * 2 ^ f.grain)) < f.infinity := by
  have hle := f.fieldsAt_le (n := num * 2 ^ f.grain) Nat.one_pos
  rw [Nat.div_one] at hle
  exact Nat.lt_of_le_of_lt hle (Nat.mul_lt_mul_of_pos_right hroom (Nat.two_pow_pos _))

theorem round_one_eq : f.round num 1 =
    f.fieldsAt (num * 2 ^ f.grain) 1 (f.excess (num * 2 ^ f.grain)) := by
  rw [round_eq, Nat.div_one]
  exact Nat.min_eq_right (Nat.le_of_lt (f.fieldsAt_lt_infinity hroom))

theorem round_lt_infinity : f.round num 1 < f.infinity := by
  rw [f.round_one_eq hroom]
  exact f.fieldsAt_lt_infinity hroom

/-- **A whole number is rounded to the bits that the fraction holds.** -/
theorem units_round : f.units (f.round num 1) = f.kept num * 2 ^ f.grain := by
  rw [f.round_one_eq hroom, units_fieldsAt, kept_mul_two_pow]

end

/-! ### Magnitudes among quotients -/

/-- Rounding depends on the quotient alone. -/
theorem round_mul_right (num den : Nat) {k : Nat} (h : 0 < k) :
    f.round (num * k) (den * k) = f.round num den := by
  have hn : num * k * 2 ^ f.grain = num * 2 ^ f.grain * k := by ac_rfl
  have hd (shift : Nat) : den * k * 2 ^ shift = den * 2 ^ shift * k := by ac_rfl
  simp only [round, hn, hd, Nat.mul_div_mul_right _ _ h, roundHalfEven_mul_right _ _ h]

/-- **A magnitude is rounded to itself.** -/
theorem round_units {m : Nat} (h : m ≤ f.infinity) : f.round (f.units m) (2 ^ f.grain) = m := by
  have hpos := Nat.two_pow_pos f.fractionBits
  have hsplit := Nat.div_add_mod m (2 ^ f.fractionBits)
  have hfraction := Nat.mod_lt m hpos
  have hfields : f.excess (f.units m) * 2 ^ f.fractionBits +
      roundHalfEven (f.units m) (2 ^ f.excess (f.units m)) = m := by
    unfold units
    simp only
    generalize m / 2 ^ f.fractionBits = e at hsplit ⊢
    generalize m % 2 ^ f.fractionBits = r at hsplit hfraction ⊢
    split
    · rename_i he
      have hexcess : f.excess r = 0 := f.excess_eq_zero (by rw [Nat.pow_succ]; omega)
      have hround : roundHalfEven r 1 = r := by
        have hexact := roundHalfEven_exact r Nat.one_pos
        rwa [Nat.mul_one] at hexact
      rw [hexcess, Nat.pow_zero, hround, ← hsplit, he]
      omega
    · rename_i he
      -- the leading bit makes the fraction full, and the exponent counts the zeros behind it
      have hfull : 2 ^ f.fractionBits + r < 2 ^ (f.fractionBits + 1) := by
        rw [Nat.pow_succ]
        omega
      have hlog : (2 ^ f.fractionBits + r).log2 = f.fractionBits := by
        rw [Nat.log2_eq_iff (by omega)]
        exact ⟨by omega, hfull⟩
      have hexcess : f.excess ((2 ^ f.fractionBits + r) * 2 ^ (e - 1)) = e - 1 := by
        rw [excess, log2_mul_two_pow (by omega), hlog]
        omega
      obtain ⟨e, rfl⟩ := Nat.exists_eq_succ_of_ne_zero he
      rw [hexcess, roundHalfEven_exact _ (Nat.two_pow_pos _), ← hsplit, Nat.succ_sub_one,
        Nat.mul_succ, Nat.mul_comm]
      omega
  have hgrain := Nat.two_pow_pos f.grain
  have hround : roundHalfEven (f.units m * 2 ^ f.grain)
      (2 ^ f.grain * 2 ^ f.excess (f.units m)) =
        roundHalfEven (f.units m) (2 ^ f.excess (f.units m)) := by
    rw [Nat.mul_comm (2 ^ f.grain), roundHalfEven_mul_right _ _ hgrain]
  rw [round_eq, Nat.mul_div_cancel _ hgrain, fieldsAt, hround, hfields]
  exact Nat.min_eq_right h

/-- A greater magnitude is no lesser number of units. -/
theorem units_mono {m m' : Nat} (h : m ≤ m') (hm' : m' ≤ f.infinity) :
    f.units m ≤ f.units m' := by
  refine Nat.le_of_not_lt fun hlt => ?_
  have hround := f.round_mono (Nat.two_pow_pos f.grain) (Nat.le_of_lt hlt)
  rw [f.round_units (Nat.le_trans h hm'), f.round_units hm'] at hround
  rw [Nat.le_antisymm h hround] at hlt
  exact Nat.lt_irrefl _ hlt

/-- **Rounding passes no magnitude.** -/
theorem round_le_of_le {num den m : Nat} (hd : 0 < den) (hm : m ≤ f.infinity)
    (h : num * 2 ^ f.grain ≤ f.units m * den) : f.round num den ≤ m := by
  have hgrain := Nat.two_pow_pos f.grain
  calc f.round num den = f.round (num * 2 ^ f.grain) (den * 2 ^ f.grain) :=
        (f.round_mul_right num den hgrain).symm
    _ ≤ f.round (f.units m * den) (den * 2 ^ f.grain) :=
        f.round_mono (Nat.mul_pos hd hgrain) h
    _ = f.round (f.units m) (2 ^ f.grain) := by
        rw [Nat.mul_comm den, f.round_mul_right _ _ hd]
    _ = m := f.round_units hm

end Format

end Binary

end ActiveRow
