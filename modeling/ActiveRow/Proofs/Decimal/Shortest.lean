import Mathlib.Algebra.Order.Field.Power
import Mathlib.Tactic.Linarith
import Mathlib.Tactic.NormNum
import Mathlib.Tactic.Positivity
import Mathlib.Tactic.Ring
import ActiveRow.Decimal.Shortest

/-!
# Shortest digits and the double that they are of

The numbers that round to a double form an interval. Intervals of neighbours touch in an end that
belongs to the even one, so no number rounds to two doubles. Shortest digits lie in the interval: a
grid of seventeen digits is finer than any interval is long, so one of its numbers is in it.

* `magnitude_eq_of_holds`: no number rounds to two magnitudes.
* `ten_pow_leadingExponent_le`: the exponent of the leading digit, guessed from the leading bit.
* `holds_shortest`: shortest digits round to the double that they are of.
-/

namespace ActiveRow.Decimal

-- powers are those of core, also beside other instances
attribute [local instance (high)] instPowNat

/-- The number that the digits and the exponent give. -/
def Scientific.value (s : Scientific) : ℚ := s.digits * 10 ^ s.exponent

/-- Moving zeros into the exponent leaves the number. -/
theorem Scientific.value_strip (fuel : Nat) (s : Scientific) : (s.strip fuel).value = s.value := by
  induction fuel generalizing s with
  | zero => rfl
  | succ fuel ih =>
    rw [strip]
    split
    · rename_i hzero
      have hdigits : s.digits = s.digits / 10 * 10 := by omega
      have hpow : (10 : ℚ) ^ (s.exponent + 1) = 10 ^ s.exponent * 10 :=
        zpow_add_one₀ (by norm_num) _
      rw [ih, value, value, hpow]
      conv_rhs => rw [hdigits]
      push_cast
      ring
    · rfl

/-! ### Grids -/

namespace Interval

variable {i : Interval} {k : ℤ} {n : ℕ} {tie : Tie}

/-- Whether a number lies in the interval. -/
def Holds (i : Interval) (q : ℚ) : Prop :=
  if i.closed then i.low ≤ q * i.den ∧ q * i.den ≤ i.high
  else i.low < q * i.den ∧ q * i.den < i.high

/-- Shifting multiplies either the ends or the denominator. -/
theorem shift_eq (i : Interval) (k : ℤ) : ∃ p r : ℕ, 0 < p ∧ (10 : ℚ) ^ k * p = r ∧
    i.shift k = ⟨i.low * p, i.value * p, i.high * p, i.den * r, i.closed⟩ := by
  by_cases hk : 0 ≤ k
  · obtain ⟨m, rfl⟩ := Int.eq_ofNat_of_zero_le hk
    exact ⟨1, 10 ^ m, Nat.one_pos, by simp, by simp [shift]⟩
  · obtain ⟨m, hm⟩ := Int.eq_ofNat_of_zero_le (show 0 ≤ -k by omega)
    obtain rfl : k = -m := by omega
    exact ⟨10 ^ m, 1, by positivity, by simp, by rw [shift, if_neg hk]; simp⟩

/-- **What is taken from a grid** lies in the interval. -/
theorem holds_of_hit (h : (i.shift k).hit tie = some n) : i.Holds (n * 10 ^ k) := by
  have hmem := hit_mem h
  obtain ⟨p, r, hp, hr, hshift⟩ := shift_eq i k
  have hp : (0 : ℚ) < p := by exact_mod_cast hp
  have hscale : (n : ℚ) * 10 ^ k * i.den * p = (n * (i.den * r) : ℕ) := by
    push_cast
    rw [← hr]
    ring
  rw [hshift] at hmem
  unfold has at hmem
  unfold Holds
  dsimp only at hmem
  split at hmem <;> rename_i hclosed
  · obtain ⟨hlow, hhigh⟩ := of_decide_eq_true hmem
    rw [if_pos hclosed]
    refine ⟨le_of_mul_le_mul_right ?_ hp, le_of_mul_le_mul_right ?_ hp⟩ <;> rw [hscale] <;>
      exact_mod_cast ‹_›
  · obtain ⟨hlow, hhigh⟩ := of_decide_eq_true hmem
    rw [if_neg hclosed]
    refine ⟨lt_of_mul_lt_mul_right ?_ hp.le, lt_of_mul_lt_mul_right ?_ hp.le⟩ <;> rw [hscale] <;>
      exact_mod_cast ‹_›

theorem hit_eq_none (h : i.hit tie = none) :
    i.has (i.value / i.den * i.den) = false ∧ i.has ((i.value / i.den + 1) * i.den) = false := by
  unfold hit at h
  dsimp only at h
  split at h <;> try split at h <;> try split at h
  all_goals first | exact ⟨‹_›, ‹_›⟩ | cases h

/-- Whole numbers outside the interval on either side are no closer than the interval is long. -/
theorem high_le_of_hit_eq_none (hlow : i.low < i.value) (hhigh : i.value < i.high)
    (hden : 0 < i.den) (h : i.hit tie = none) : i.high ≤ i.low + i.den := by
  obtain ⟨hbelow, habove⟩ := hit_eq_none h
  have hfloor := Nat.div_mul_le_self i.value i.den
  have hceil : i.value < (i.value / i.den + 1) * i.den := by
    rw [Nat.mul_comm]
    exact Nat.lt_mul_div_succ i.value hden
  have hstep : (i.value / i.den + 1) * i.den = i.value / i.den * i.den + i.den := by ring
  unfold has at hbelow habove
  split at hbelow
  · rw [if_pos ‹_›] at habove
    simp only [decide_eq_false_iff_not] at hbelow habove
    omega
  · rw [if_neg ‹_›] at habove
    simp only [decide_eq_false_iff_not] at hbelow habove
    omega

/-- **Something is taken from a grid** that is finer than the interval is long. -/
theorem exists_hit (hlow : i.low < i.value) (hhigh : i.value < i.high) (hden : 0 < i.den)
    (hfine : (10 : ℚ) ^ k * i.den + i.low < i.high) : ∃ n, (i.shift k).hit tie = some n := by
  obtain ⟨p, r, hp, hr, hshift⟩ := shift_eq i k
  have hp' : (0 : ℚ) < p := by exact_mod_cast hp
  have hr' : 0 < r := by
    have : (0 : ℚ) < r := hr ▸ by positivity
    exact_mod_cast this
  have hfine : i.low * p + i.den * r < i.high * p := by
    have hscaled := mul_lt_mul_of_pos_right hfine hp'
    have hgrid : ((10 : ℚ) ^ k * i.den + i.low) * p = (i.low * p + i.den * r : ℕ) := by
      push_cast
      rw [← hr]
      ring
    rw [hgrid] at hscaled
    exact_mod_cast hscaled
  rw [hshift]
  refine Option.ne_none_iff_exists'.1 fun hnone => ?_
  have hle := high_le_of_hit_eq_none (Nat.mul_lt_mul_of_pos_right hlow hp)
    (Nat.mul_lt_mul_of_pos_right hhigh hp) (Nat.mul_pos hden hr') hnone
  exact absurd hle (Nat.not_le.2 hfine)

end Interval

/-! ### The leading digit -/

/-- **The guess from the binary logarithm** is too high by one at most. -/
theorem ten_pow_guess_le {b g : ℤ} (hb : -22000 ≤ b) (hb' : b ≤ 100000)
    (hg : 100000 * g ≤ 30103 * b) : (10 : ℚ) ^ (g - 1) ≤ 2 ^ b := by
  -- the logarithm lies between 28/93 and 59/196
  have hlow : (2 : ℚ) ^ 93 ≤ 10 ^ 28 := by norm_num
  have hhigh : (10 : ℚ) ^ 59 ≤ 2 ^ 196 := by norm_num
  by_cases hsign : 0 ≤ b
  · obtain ⟨n, rfl⟩ := Int.eq_ofNat_of_zero_le hsign
    refine (pow_le_pow_iff_left₀ (by positivity) (by positivity) (show 196 ≠ 0 by decide)).1 ?_
    calc ((10 : ℚ) ^ (g - 1)) ^ 196 = 10 ^ ((g - 1) * 196) := by
          rw [← zpow_natCast, ← zpow_mul]
          rfl
      _ ≤ 10 ^ ((59 * n : ℕ) : ℤ) := zpow_le_zpow_right₀ (by norm_num) (by omega)
      _ = (10 ^ 59) ^ n := by rw [zpow_natCast, pow_mul]
      _ ≤ (2 ^ 196) ^ n := pow_le_pow_left₀ (by positivity) hhigh n
      _ = (2 ^ (n : ℤ)) ^ 196 := by rw [zpow_natCast, ← pow_mul, ← pow_mul, Nat.mul_comm]
  · obtain ⟨n, hn⟩ := Int.eq_ofNat_of_zero_le (show 0 ≤ -b by omega)
    obtain rfl : b = -n := by omega
    refine (pow_le_pow_iff_left₀ (by positivity) (by positivity) (show 93 ≠ 0 by decide)).1 ?_
    calc ((10 : ℚ) ^ (g - 1)) ^ 93 = 10 ^ ((g - 1) * 93) := by
          rw [← zpow_natCast, ← zpow_mul]
          rfl
      _ ≤ 10 ^ (-(28 * n : ℕ) : ℤ) := zpow_le_zpow_right₀ (by norm_num) (by omega)
      _ = ((10 ^ 28) ^ n)⁻¹ := by rw [zpow_neg, zpow_natCast, pow_mul]
      _ ≤ ((2 ^ 93) ^ n)⁻¹ := inv_anti₀ (by positivity) (pow_le_pow_left₀ (by positivity) hlow n)
      _ = (2 ^ (-(n : ℤ))) ^ 93 := by
        rw [zpow_neg, zpow_natCast, inv_pow, ← pow_mul, ← pow_mul, Nat.mul_comm]

/-- The exponent of the leading bit of a quotient, or one less. -/
def binaryExponent (num den : ℕ) : ℤ :=
  if den ≤ num then (num / den).log2 else -((den / num).log2 + 1)

theorem two_pow_binaryExponent_le {num den : ℕ} (hn : 0 < num) (hd : 0 < den) :
    (2 : ℚ) ^ binaryExponent num den * den ≤ num := by
  unfold binaryExponent
  split
  · rename_i hle
    have hq : num / den ≠ 0 := (Nat.div_pos hle hd).ne'
    have hbits : 2 ^ (num / den).log2 * den ≤ num :=
      (Nat.mul_le_mul_right den (Nat.log2_self_le hq)).trans (Nat.div_mul_le_self num den)
    rw [zpow_natCast]
    exact_mod_cast hbits
  · have hbits : den ≤ num * 2 ^ ((den / num).log2 + 1) :=
      (Nat.lt_mul_div_succ den hn).le.trans (Nat.mul_le_mul_left num Nat.lt_log2_self)
    have hpos : (0 : ℚ) < 2 ^ ((den / num).log2 + 1) := by positivity
    rw [zpow_neg, inv_mul_le_iff₀ (by positivity), mul_comm]
    exact_mod_cast hbits

/-- Whether a power of ten is no greater than a quotient. -/
def reaches (num den : ℕ) (k : ℤ) : Bool :=
  if 0 ≤ k then decide (den * 10 ^ k.toNat ≤ num) else decide (den ≤ num * 10 ^ (-k).toNat)

theorem leadingExponent_eq (num den : ℕ) : leadingExponent num den =
    let guess := binaryExponent num den * 30103 / 100000
    if reaches num den (guess + 1) then guess + 1
    else if reaches num den guess then guess else guess - 1 := rfl

theorem ten_pow_le_of_reaches {num den : ℕ} {k : ℤ} (h : reaches num den k = true) :
    (10 : ℚ) ^ k * den ≤ num := by
  unfold reaches at h
  split at h <;> replace h := of_decide_eq_true h
  · obtain ⟨m, rfl⟩ := Int.eq_ofNat_of_zero_le ‹_›
    rw [zpow_natCast, mul_comm]
    exact_mod_cast h
  · obtain ⟨m, hm⟩ := Int.eq_ofNat_of_zero_le (show 0 ≤ -k by omega)
    obtain rfl : k = -m := by omega
    rw [zpow_neg, zpow_natCast, inv_mul_le_iff₀ (by positivity), mul_comm]
    simp only [neg_neg, Int.toNat_natCast] at h
    exact_mod_cast h

/-- **The leading digit** stands no higher than the number. -/
theorem ten_pow_leadingExponent_le {num den : ℕ} (hn : 0 < num) (hd : 0 < den)
    (hlow : -22000 ≤ binaryExponent num den) (hhigh : binaryExponent num den ≤ 100000) :
    (10 : ℚ) ^ leadingExponent num den * den ≤ num := by
  have hguess : (10 : ℚ) ^ (binaryExponent num den * 30103 / 100000 - 1) * den ≤ num :=
    (mul_le_mul_of_nonneg_right (ten_pow_guess_le hlow hhigh (by omega)) (by positivity)).trans
      (two_pow_binaryExponent_le hn hd)
  rw [leadingExponent_eq]
  dsimp only
  split
  · exact ten_pow_le_of_reaches ‹_›
  split
  · exact ten_pow_le_of_reaches ‹_›
  · exact hguess

/-! ### The numbers that round to a double -/

open Binary (Format)

/-- The step from a magnitude to the next, in units. -/
def stepUp (m : ℕ) : ℕ := 2 ^ (m / 0x10000000000000 - 1)

/-- The step down to a magnitude from the one before, in units. -/
def stepDown (m : ℕ) : ℕ :=
  if m % 0x10000000000000 = 0 ∧ 1 < m / 0x10000000000000 then stepUp m else 2 * stepUp m

theorem units_eq (m : ℕ) : Format.double.units m =
    if m / 0x10000000000000 = 0 then m % 0x10000000000000
    else (0x10000000000000 + m % 0x10000000000000) * stepUp m := rfl

theorem stepUp_pos (m : ℕ) : 0 < stepUp m := Nat.two_pow_pos _

theorem units_lt (m : ℕ) : Format.double.units m < 2 ^ 53 * stepUp m := by
  have hfraction := Nat.mod_lt m (show 0 < 0x10000000000000 by decide)
  have hstep := stepUp_pos m
  rw [units_eq]
  split
  · omega
  · exact Nat.mul_lt_mul_of_pos_right (by omega) hstep

theorem four_units_lt {m n : ℕ} (h : m / 0x10000000000000 + 55 ≤ n) :
    4 * Format.double.units m < 2 ^ n := by
  have hstep : stepUp m ≤ 2 ^ (m / 0x10000000000000) :=
    Nat.pow_le_pow_right (by decide) (Nat.sub_le _ _)
  have hunits := units_lt m
  have hpow : 2 ^ (m / 0x10000000000000 + 55) ≤ 2 ^ n := Nat.pow_le_pow_right (by decide) h
  rw [Nat.pow_add] at hpow
  omega

theorem units_succ (m : ℕ) :
    Format.double.units (m + 1) = Format.double.units m + stepUp m := by
  rw [units_eq, units_eq]
  by_cases hcarry : m % 0x10000000000000 + 1 = 0x10000000000000
  · -- the fraction overflows into the exponent
    have hdiv : (m + 1) / 0x10000000000000 = m / 0x10000000000000 + 1 := by omega
    have hmod : (m + 1) % 0x10000000000000 = 0 := by omega
    have hm : m % 0x10000000000000 = 0xFFFFFFFFFFFFF := by omega
    rw [stepUp, stepUp, hdiv, hmod, hm, if_neg (by omega), Nat.add_sub_cancel]
    split
    · rename_i hzero
      rw [hzero]
    · obtain ⟨e, he⟩ := Nat.exists_eq_succ_of_ne_zero ‹_›
      rw [he, Nat.succ_sub_one, Nat.pow_succ]
      ring
  · have hdiv : (m + 1) / 0x10000000000000 = m / 0x10000000000000 := by omega
    have hmod : (m + 1) % 0x10000000000000 = m % 0x10000000000000 + 1 := by omega
    rw [stepUp, stepUp, hdiv, hmod]
    split
    · rename_i hzero
      rw [hzero]
    · ring

theorem stepDown_succ (m : ℕ) : stepDown (m + 1) = 2 * stepUp m := by
  unfold stepDown stepUp
  by_cases hcarry : m % 0x10000000000000 + 1 = 0x10000000000000
  · have hdiv : (m + 1) / 0x10000000000000 = m / 0x10000000000000 + 1 := by omega
    have hmod : (m + 1) % 0x10000000000000 = 0 := by omega
    rw [hdiv, hmod, Nat.add_sub_cancel]
    split
    · obtain ⟨e, he⟩ := Nat.exists_eq_succ_of_ne_zero (show m / 0x10000000000000 ≠ 0 by omega)
      rw [he, Nat.succ_sub_one, Nat.pow_succ, Nat.mul_comm]
    · have hzero : m / 0x10000000000000 = 0 := by omega
      rw [hzero]
  · have hdiv : (m + 1) / 0x10000000000000 = m / 0x10000000000000 := by omega
    rw [hdiv, if_neg (by omega)]

/-- The lower end of the numbers that round to a magnitude, in quarters of a unit. -/
def lowEnd (m : ℕ) : ℕ := 4 * Format.double.units m - stepDown m

def highEnd (m : ℕ) : ℕ := 4 * Format.double.units m + 2 * stepUp m

theorem interval_eq (x : Double) : Interval.ofDouble x =
    ⟨lowEnd x.magnitude, 4 * Format.double.units x.magnitude, highEnd x.magnitude,
      4 * Double.unitsPerOne, x.magnitude % 2 = 0⟩ := rfl

/-- **Intervals touch**: one ends where the next begins. -/
theorem lowEnd_succ (m : ℕ) : lowEnd (m + 1) = highEnd m := by
  rw [lowEnd, highEnd, units_succ, stepDown_succ]
  omega

theorem lowEnd_lt_highEnd (m : ℕ) : lowEnd m < highEnd m := by
  have hstep := stepUp_pos m
  unfold lowEnd highEnd
  omega

theorem highEnd_le_lowEnd {m n : ℕ} (h : m < n) : highEnd m ≤ lowEnd n := by
  induction n, h using Nat.le_induction with
  | base => exact (lowEnd_succ m).ge
  | succ n _ ih =>
    rw [lowEnd_succ]
    exact ih.trans (lowEnd_lt_highEnd n).le

theorem Interval.Holds.between {i : Interval} {q : ℚ} (h : i.Holds q) :
    i.low ≤ q * i.den ∧ q * i.den ≤ i.high := by
  unfold Holds at h
  split at h
  · exact h
  · exact ⟨h.1.le, h.2.le⟩

/-- An end that belongs to the interval is that of a closed one. -/
theorem Interval.Holds.closed_of_end {i : Interval} {q : ℚ} (h : i.Holds q)
    (hend : q * i.den = i.low ∨ q * i.den = i.high) : i.closed = true := by
  by_contra hopen
  rw [Holds, if_neg hopen] at h
  rcases hend with hend | hend
  · exact h.1.ne' hend
  · exact h.2.ne hend

theorem not_lt_of_holds {x y : Double} {q : ℚ} (hx : (Interval.ofDouble x).Holds q)
    (hy : (Interval.ofDouble y).Holds q) : ¬x.magnitude < y.magnitude := by
  intro hlt
  rw [interval_eq] at hx hy
  have hends : (highEnd x.magnitude : ℚ) ≤ lowEnd y.magnitude := by
    exact_mod_cast highEnd_le_lowEnd hlt
  have hhigh := hx.between.2
  have hlow := hy.between.1
  -- the number is the end that both share, which belongs to even magnitudes only
  have hxeven := hx.closed_of_end (.inr (le_antisymm hhigh (hends.trans hlow)))
  have hyeven := hy.closed_of_end (.inl (le_antisymm (hhigh.trans hends) hlow))
  have hgap : highEnd x.magnitude < lowEnd y.magnitude := by
    simp only [decide_eq_true_eq] at hxeven hyeven
    calc highEnd x.magnitude = lowEnd (x.magnitude + 1) := (lowEnd_succ _).symm
      _ < highEnd (x.magnitude + 1) := lowEnd_lt_highEnd _
      _ ≤ lowEnd y.magnitude := highEnd_le_lowEnd (by omega)
  have hgap : (highEnd x.magnitude : ℚ) < lowEnd y.magnitude := by exact_mod_cast hgap
  exact absurd (hlow.trans hhigh) (not_le.2 hgap)

/-- **No number rounds to two magnitudes.** -/
theorem magnitude_eq_of_holds {x y : Double} {q : ℚ} (hx : (Interval.ofDouble x).Holds q)
    (hy : (Interval.ofDouble y).Holds q) : x.magnitude = y.magnitude :=
  Nat.le_antisymm (Nat.not_lt.1 (not_lt_of_holds hy hx)) (Nat.not_lt.1 (not_lt_of_holds hx hy))

/-! ### Seventeen digits -/

/-- The interval of a magnitude is longer than a unit of its seventeenth digit. -/
theorem value_lt_length (m : ℕ) :
    4 * Format.double.units m + 10 ^ 16 * lowEnd m < 10 ^ 16 * highEnd m := by
  have hstep := stepUp_pos m
  have hunits := units_lt m
  have heq := units_eq m
  unfold lowEnd highEnd stepDown
  split
  · rename_i hboundary
    rw [if_neg (by omega), hboundary.1, Nat.add_zero] at heq
    omega
  · omega

theorem binaryExponent_bounds {num den n : ℕ} (hnum : num < 2 ^ n) (hden : den < 2 ^ n) :
    -(n : ℤ) - 1 ≤ binaryExponent num den ∧ binaryExponent num den ≤ n := by
  have hlog : ∀ {a b : ℕ}, a < 2 ^ n → (a / b).log2 ≤ n := fun {a b} ha => by
    have hle : a / b < 2 ^ n := (Nat.div_le_self a b).trans_lt ha
    by_cases hzero : a / b = 0
    · simp [hzero]
    · exact ((Nat.log2_lt hzero).2 hle).le
  have hnum := hlog (b := den) hnum
  have hden := hlog (b := num) hden
  unfold binaryExponent
  split <;> omega

/-- The exponent of the leading digit of a double. -/
def lead (x : Double) : ℤ :=
  leadingExponent (4 * Format.double.units x.magnitude) (4 * Double.unitsPerOne)

/-- What is taken from the grid of the digits up to the `n`-th behind the leading one. -/
def digitsAt (tie : Tie) (x : Double) (n : ℕ) : Option Scientific :=
  (((Interval.ofDouble x).shift (lead x - n)).hit tie).map fun d => ⟨d, lead x - n⟩

theorem shortest_eq (tie : Tie) (x : Double) : shortest tie x =
    (((List.range 17).findSome? (digitsAt tie x)).getD
      ⟨(Interval.ofDouble x).value / (Interval.ofDouble x).den, 0⟩).strip 20 := rfl

section

variable {x : Double} (hzero : x.isZero = false)

include hzero

theorem units_pos : 0 < Format.double.units x.magnitude := by
  have hm : x.magnitude ≠ 0 := of_decide_eq_false hzero
  have hstep := stepUp_pos x.magnitude
  rw [units_eq]
  split
  · omega
  · exact Nat.mul_pos (by omega) hstep

variable (hfinite : x.isFinite = true)

include hfinite

theorem ten_pow_lead_le : (10 : ℚ) ^ lead x * (4 * Double.unitsPerOne : ℕ) ≤
    (4 * Format.double.units x.magnitude : ℕ) := by
  have hunits := units_pos hzero
  have hone : 0 < Double.unitsPerOne := Nat.two_pow_pos _
  have hm : x.magnitude < 2047 * 0x10000000000000 := of_decide_eq_true hfinite
  obtain ⟨n, hn⟩ : ∃ n : ℕ, n = 3000 := ⟨_, rfl⟩
  have hden : 4 * Double.unitsPerOne < 2 ^ n := by
    have hgrain : Format.double.grain + 2 < n := by
      rw [hn]
      decide
    have hpow : 2 ^ (Format.double.grain + 2) < 2 ^ n := Nat.pow_lt_pow_right (by decide) hgrain
    rw [Nat.pow_add] at hpow
    unfold Double.unitsPerOne
    omega
  obtain ⟨hlow, hhigh⟩ := binaryExponent_bounds (four_units_lt (m := x.magnitude) (by omega)) hden
  exact ten_pow_leadingExponent_le (by omega) (by omega) (by omega) (by omega)

/-- **Seventeen digits are enough**: some number of as many digits rounds to the double. -/
theorem exists_digitsAt (tie : Tie) : ∃ s, digitsAt tie x 16 = some s := by
  have hunits := units_pos hzero
  have hstep := stepUp_pos x.magnitude
  have hone : 0 < Double.unitsPerOne := Nat.two_pow_pos _
  have hlead := ten_pow_lead_le hzero hfinite
  have hlow : lowEnd x.magnitude < 4 * Format.double.units x.magnitude := by
    unfold lowEnd stepDown
    split <;> omega
  have hhigh : 4 * Format.double.units x.magnitude < highEnd x.magnitude := by
    unfold highEnd
    omega
  have hlength : ((4 * Format.double.units x.magnitude + 10 ^ 16 * lowEnd x.magnitude : ℕ) : ℚ) <
      (10 ^ 16 * highEnd x.magnitude : ℕ) := by exact_mod_cast value_lt_length x.magnitude
  obtain ⟨n, hn⟩ : ∃ n, ((Interval.ofDouble x).shift (lead x - (16 : ℕ))).hit tie = some n := by
    refine Interval.exists_hit hlow hhigh (Nat.mul_pos (by decide) hone) ?_
    rw [zpow_sub₀ (by norm_num), interval_eq]
    push_cast at hlength hlead ⊢
    linarith
  exact ⟨_, by rw [digitsAt, hn, Option.map_some]⟩

/-- **Shortest digits round to the double.** -/
theorem holds_shortest (tie : Tie) : (Interval.ofDouble x).Holds (shortest tie x).value := by
  obtain ⟨s, hs⟩ := exists_digitsAt hzero hfinite tie
  obtain ⟨s, hs⟩ : ∃ s, (List.range 17).findSome? (digitsAt tie x) = some s :=
    Option.isSome_iff_exists.1 (List.findSome?_isSome_iff.2 ⟨16, by simp, by rw [hs]; rfl⟩)
  obtain ⟨n, -, hn⟩ := List.exists_of_findSome?_eq_some hs
  obtain ⟨d, hd, rfl⟩ := Option.map_eq_some_iff.1 hn
  rw [shortest_eq, hs, Option.getD_some, Scientific.value_strip]
  exact Interval.holds_of_hit hd

end

end ActiveRow.Decimal
