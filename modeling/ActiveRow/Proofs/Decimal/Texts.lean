import Mathlib.Data.List.TakeWhile
import Mathlib.Tactic.FieldSimp
import ActiveRow.Proofs.Decimal.Shortest
import ActiveRow.Proofs.Decimal.Whole
import ActiveRow.Decimal.Literal

/-!
# Doubles and their texts

Positional digits and digits with an exponent are texts of one number, the digits times a power of
ten. For the shortest digits of a double it rounds to that double. So the texts of doubles differ
where the doubles do.

* `Writes`: an unsigned text of a number; `writes_positional`, `writes_exponential`.
* `WritesDouble.unique`: a text is that of one finite double.
* `plain_eq_iff`: doubles are told by their plain texts, but for one NaN from another.
* `documented_inj`: finite doubles are told by their texts in documents.
-/

namespace ActiveRow.Decimal

-- powers are those of core, also beside other instances
attribute [local instance (high)] instPowNat

/-! ### Digits -/

theorem digitsValue_eq_ofDigitChars (cs : List Char) :
    digitsValue cs = Nat.ofDigitChars 10 cs 0 := by
  simp only [digitsValue, Nat.ofDigitChars, Nat.mul_comm]
  rfl

theorem digitsValue_append (w f : List Char) :
    digitsValue (w ++ f) = digitsValue w * 10 ^ f.length + digitsValue f := by
  simp only [digitsValue_eq_ofDigitChars]
  rw [Nat.ofDigitChars_append, Nat.ofDigitChars_eq_ofDigitChars_zero, Nat.mul_comm]

theorem digitsValue_zeros (n : ℕ) : digitsValue (zeros n) = 0 := by
  induction n with
  | zero => rfl
  | succ n ih => exact ih

theorem digitsValue_repr (n : ℕ) : digitsValue (Nat.repr n).toList = n := by
  rw [digitsValue_eq_ofDigitChars, Nat.toList_repr, Nat.ofDigitChars_ten_toDigits]

/-- Whether a text has digits only. -/
def Digits (cs : List Char) : Prop := ∀ c ∈ cs, c.isDigit = true

theorem digits_repr (n : ℕ) : Digits (Nat.repr n).toList := fun _ => isDigit_of_mem_repr

theorem digits_zeros (n : ℕ) : Digits (zeros n) := fun c hc => by
  rw [List.eq_of_mem_replicate hc]
  decide

theorem Digits.append {w f : List Char} (hw : Digits w) (hf : Digits f) : Digits (w ++ f) :=
  fun c hc => (List.mem_append.1 hc).elim (hw c) (hf c)

/-! ### The number of a text -/

/-- The number that digits with at most one point give. -/
def pointed (cs : List Char) : ℚ :=
  digitsValue (cs.filter (· ≠ '.')) / 10 ^ ((cs.dropWhile (· ≠ '.')).drop 1).length

/-- The exponent that a mark, a sign and digits give. -/
def exponentOf : List Char → ℤ
  | 'e' :: '-' :: ds => -digitsValue ds
  | 'e' :: _ :: ds => digitsValue ds
  | _ => 0

/-- The number of an unsigned text. -/
def numberOf (cs : List Char) : ℚ :=
  pointed (cs.takeWhile (· ≠ 'e')) * 10 ^ exponentOf (cs.dropWhile (· ≠ 'e'))

theorem Digits.ne {w : List Char} (hw : Digits w) {a : Char} (ha : a.isDigit = false) :
    ∀ c ∈ w, decide (c ≠ a) = true := by
  intro c hc
  refine decide_eq_true fun h => ?_
  rw [← h, hw c hc] at ha
  cases ha

theorem pointed_digits {w : List Char} (hw : Digits w) : pointed w = digitsValue w := by
  have hne := hw.ne (a := '.') (by decide)
  rw [pointed, List.filter_eq_self.2 hne, List.dropWhile_eq_nil_iff.2 hne]
  simp

theorem pointed_point {w f : List Char} (hw : Digits w) (hf : Digits f) :
    pointed (w ++ '.' :: f) = digitsValue (w ++ f) / 10 ^ f.length := by
  have hwne := hw.ne (a := '.') (by decide)
  have hfne := hf.ne (a := '.') (by decide)
  rw [pointed, List.filter_append, List.filter_eq_self.2 hwne,
    List.dropWhile_append_of_pos hwne, List.filter_cons_of_neg (by simp),
    List.filter_eq_self.2 hfne, List.dropWhile_cons_of_neg (by simp)]
  rfl

/-- Without the mark of an exponent there is none. -/
theorem numberOf_pointed {m : List Char} (hm : 'e' ∉ m) : numberOf m = pointed m := by
  have hne : ∀ c ∈ m, decide (c ≠ 'e') = true := fun c hc =>
    decide_eq_true fun h => hm (h ▸ hc)
  rw [numberOf, List.takeWhile_eq_self_iff.2 hne, List.dropWhile_eq_nil_iff.2 hne]
  simp [exponentOf]

theorem numberOf_exponent {m : List Char} (hm : 'e' ∉ m) (tail : List Char) :
    numberOf (m ++ 'e' :: tail) = pointed m * 10 ^ exponentOf ('e' :: tail) := by
  have hne : ∀ c ∈ m, decide (c ≠ 'e') = true := fun c hc =>
    decide_eq_true fun h => hm (h ▸ hc)
  rw [numberOf, List.takeWhile_append_of_pos hne, List.dropWhile_append_of_pos hne,
    List.takeWhile_cons_of_neg (by simp), List.dropWhile_cons_of_neg (by simp), List.append_nil]

/-! ### Written digits -/

variable {s : Scientific}

/-- Digits alone, when the exponent is not negative. -/
theorem positional_of_nonneg (h : 0 ≤ s.exponent) : ∃ w, w ≠ [] ∧ Digits w ∧
    positional s = w ∧ (digitsValue w : ℚ) = s.value := by
  obtain ⟨n, hn⟩ := Int.eq_ofNat_of_zero_le h
  refine ⟨positional s, ?_, ?_, rfl, ?_⟩ <;> rw [positional, if_pos h]
  · simp [Nat.toList_repr]
  · exact (digits_repr _).append (digits_zeros _)
  · rw [digitsValue_append, digitsValue_repr, digitsValue_zeros, Scientific.value, hn]
    simp [zeros]

/-- Digits with a point in them, when it is. -/
theorem positional_of_neg (h : ¬0 ≤ s.exponent) : ∃ w f, w ≠ [] ∧ Digits w ∧ Digits f ∧
    positional s = w ++ '.' :: f ∧ (digitsValue (w ++ f) / 10 ^ f.length : ℚ) = s.value := by
  obtain ⟨n, hn⟩ := Int.eq_ofNat_of_zero_le (show 0 ≤ -s.exponent by omega)
  have hexponent : s.exponent = -n := by omega
  have hvalue : ∀ {w f : List Char}, digitsValue (w ++ f) = s.digits → f.length = n →
      (digitsValue (w ++ f) / 10 ^ f.length : ℚ) = s.value := fun hdigits hlength => by
    rw [hdigits, hlength, Scientific.value, hexponent, zpow_neg, zpow_natCast, div_eq_mul_inv]
  have hds := digits_repr s.digits
  have hrepr := digitsValue_repr s.digits
  rw [positional, if_neg h]
  generalize (Nat.repr s.digits).toList = ds at hds hrepr ⊢
  dsimp only
  split
  · -- the point stands between the digits
    obtain ⟨p, hp⟩ := Int.eq_ofNat_of_zero_le (show 0 ≤ (ds.length : ℤ) + s.exponent by omega)
    rw [hp, Int.toNat_natCast]
    refine ⟨ds.take p, ds.drop p, ?_, fun c hc => hds c (List.mem_of_mem_take hc),
      fun c hc => hds c (List.mem_of_mem_drop hc), rfl, hvalue ?_ ?_⟩
    · rw [ne_eq, List.take_eq_nil_iff, ← List.length_eq_zero_iff]
      omega
    · rw [List.take_append_drop, hrepr]
    · rw [List.length_drop]
      omega
  · refine ⟨['0'], zeros (-(ds.length + s.exponent)).toNat ++ ds, by simp, digits_zeros 1,
      (digits_zeros _).append hds, rfl, hvalue ?_ ?_⟩
    · rw [digitsValue_append, digitsValue_append, digitsValue_zeros, hrepr]
      simp [digitsValue]
    · simp only [zeros, List.length_append, List.length_replicate]
      omega

/-- The characters of numerals. -/
def isNumeral (c : Char) : Bool := c.isDigit || c == '.' || c == 'e' || c == '+' || c == '-'

/-- An unsigned text of a number: it begins with a digit, consists of characters of numerals, and
gives the number. -/
structure Writes (cs : List Char) (q : ℚ) : Prop where
  begins : ∃ c rest, cs = c :: rest ∧ c.isDigit = true
  numeral : ∀ c ∈ cs, isNumeral c = true
  value : numberOf cs = q

theorem Digits.numeral {w : List Char} (hw : Digits w) : ∀ c ∈ w, isNumeral c = true :=
  fun c hc => by simp [isNumeral, hw c hc]

theorem Digits.not_mem {w : List Char} (hw : Digits w) {a : Char} (ha : a.isDigit = false) :
    a ∉ w := fun hmem => of_decide_eq_true (hw.ne ha a hmem) rfl

theorem Digits.begins {w : List Char} (hw : Digits w) (hne : w ≠ []) (rest : List Char) :
    ∃ c tail, w ++ rest = c :: tail ∧ c.isDigit = true := by
  obtain ⟨c, w, rfl⟩ := List.exists_cons_of_ne_nil hne
  exact ⟨c, w ++ rest, rfl, hw c List.mem_cons_self⟩

theorem writes_digits {w : List Char} (hw : Digits w) (hne : w ≠ []) :
    Writes w (digitsValue w) where
  begins := by simpa using hw.begins hne []
  numeral := hw.numeral
  value := by rw [numberOf_pointed (hw.not_mem (by decide)), pointed_digits hw]

theorem mark_not_mem {w f : List Char} (hw : Digits w) (hf : Digits f) : 'e' ∉ w ++ '.' :: f := by
  simp only [List.mem_append, List.mem_cons, not_or]
  exact ⟨hw.not_mem (by decide), by decide, hf.not_mem (by decide)⟩

theorem writes_point {w f : List Char} (hw : Digits w) (hf : Digits f) (hne : w ≠ []) :
    Writes (w ++ '.' :: f) (digitsValue (w ++ f) / 10 ^ f.length) where
  begins := hw.begins hne _
  numeral := by
    simp only [List.forall_mem_append, List.forall_mem_cons]
    exact ⟨hw.numeral, by decide, hf.numeral⟩
  value := by rw [numberOf_pointed (mark_not_mem hw hf), pointed_point hw hf]

theorem writes_positional (s : Scientific) : Writes (positional s) s.value := by
  by_cases h : 0 ≤ s.exponent
  · obtain ⟨w, hne, hw, htext, hvalue⟩ := positional_of_nonneg h
    rw [htext, ← hvalue]
    exact writes_digits hw hne
  · obtain ⟨w, f, hne, hw, hf, htext, hvalue⟩ := positional_of_neg h
    rw [htext, ← hvalue]
    exact writes_point hw hf hne

/-- With a point in any case. -/
theorem writes_positional_point (s : Scientific) :
    let cs := positional s ++ if 0 ≤ s.exponent then ['.', '0'] else []
    Writes cs s.value ∧ '.' ∈ cs := by
  by_cases h : 0 ≤ s.exponent
  · obtain ⟨w, hne, hw, htext, hvalue⟩ := positional_of_nonneg h
    have hzero : (digitsValue (w ++ ['0']) / 10 ^ ['0'].length : ℚ) = s.value := by
      rw [digitsValue_append, ← hvalue]
      simp [digitsValue]
    rw [htext, if_pos h, ← hzero]
    exact ⟨writes_point hw (digits_zeros 1) hne, by simp⟩
  · obtain ⟨w, f, hne, hw, hf, htext, hvalue⟩ := positional_of_neg h
    rw [htext, if_neg h, List.append_nil, ← hvalue]
    exact ⟨writes_point hw hf hne, by simp⟩

theorem exponentOf_sign (e : ℤ) :
    exponentOf ('e' :: (if e < 0 then '-' else '+') :: (Nat.repr e.natAbs).toList) = e := by
  by_cases h : e < 0
  · rw [if_pos h, exponentOf, digitsValue_repr]
    omega
  · rw [if_neg h, exponentOf, digitsValue_repr]
    · omega
    · decide

/-- A text with an exponent behind it. -/
theorem Writes.exponent {m : List Char} {q : ℚ} (h : Writes m q) (hm : 'e' ∉ m) (e : ℤ) :
    Writes (m ++ 'e' :: (if e < 0 then '-' else '+') :: (Nat.repr e.natAbs).toList)
      (q * 10 ^ e) where
  begins := by
    obtain ⟨c, rest, rfl, hc⟩ := h.begins
    exact ⟨c, _, rfl, hc⟩
  numeral := by
    simp only [List.forall_mem_append, List.forall_mem_cons]
    exact ⟨h.numeral, by decide, by split <;> decide, (digits_repr _).numeral⟩
  value := by rw [numberOf_exponent hm, exponentOf_sign, ← h.value, numberOf_pointed hm]

theorem writes_exponential (s : Scientific) :
    Writes (exponential s) s.value ∧ 'e' ∈ exponential s := by
  have hds := digits_repr s.digits
  have hrepr := digitsValue_repr s.digits
  have hne : (Nat.repr s.digits).toList ≠ [] := by simp [Nat.toList_repr]
  unfold exponential
  generalize (Nat.repr s.digits).toList = ds at hds hrepr hne ⊢
  match ds, hne with
  | [d], _ =>
    have hwhole := (writes_digits hds (List.cons_ne_nil _ _)).exponent
      (hds.not_mem (by decide)) (([d].length : ℤ) - 1 + s.exponent)
    rw [hrepr, List.length_singleton, Nat.cast_one, sub_self, zero_add] at hwhole
    refine ⟨?_, by simp⟩
    simpa [Scientific.value] using hwhole
  | d :: f :: rest, _ =>
    have hd : Digits [d] := fun c hc => hds c (by simp_all)
    have hf : Digits (f :: rest) := fun c hc => hds c (List.mem_cons_of_mem d hc)
    have hpoint := (writes_point hd hf (List.cons_ne_nil _ _)).exponent (mark_not_mem hd hf)
      (((d :: f :: rest).length : ℤ) - 1 + s.exponent)
    have hvalue : (digitsValue ([d] ++ f :: rest) / 10 ^ (f :: rest).length *
        10 ^ (((d :: f :: rest).length : ℤ) - 1 + s.exponent) : ℚ) = s.value := by
      have hexponent : ((d :: f :: rest).length : ℤ) - 1 + s.exponent =
          (f :: rest).length + s.exponent := by simp
      have hpow : (10 : ℚ) ^ (f :: rest).length ≠ 0 := by positivity
      rw [show [d] ++ f :: rest = d :: f :: rest from rfl, hrepr, hexponent,
        zpow_add₀ (by norm_num), zpow_natCast, Scientific.value]
      field_simp
    rw [hvalue] at hpoint
    exact ⟨hpoint, by simp⟩

/-! ### Texts of doubles -/

variable {x y : Double}

theorem eq_of_sign_of_magnitude (hsign : x.isNegative = y.isNegative)
    (hmagnitude : x.magnitude = y.magnitude) : x = y := by
  have hbits : x.bits.toNat = y.bits.toNat := by rw [x.bits_eq, y.bits_eq, hsign, hmagnitude]
  cases x
  cases y
  exact congrArg Double.mk (UInt64.toNat_inj.1 hbits)

/-- The text of a finite double: a sign, and a number that rounds to its magnitude. -/
def WritesDouble (x : Double) (text : String) : Prop :=
  ∃ cs q, text = signed x cs ∧ Writes cs q ∧ (Interval.ofDouble x).Holds q

theorem holds_zero (hzero : x.isZero = true) : (Interval.ofDouble x).Holds 0 := by
  have hm : x.magnitude = 0 := of_decide_eq_true hzero
  have hlow : lowEnd 0 = 0 := Nat.zero_sub _
  rw [interval_eq, hm, Interval.Holds, if_pos (by rfl), zero_mul, hlow]
  exact ⟨Nat.cast_zero.le, Nat.cast_nonneg _⟩

theorem writesDouble_plain (hfinite : x.isFinite = true) : WritesDouble x (plain x) := by
  have hm : x.magnitude < Binary.Format.double.infinity := of_decide_eq_true hfinite
  have hnan : x.isNaN = false := decide_eq_false (by omega)
  have hinf : x.isInfinite = false := decide_eq_false (by omega)
  rw [plain, hnan, hinf]
  cases hzero : x.isZero with
  | true =>
    exact ⟨['0'], _, rfl, writes_digits (digits_zeros 1) (List.cons_ne_nil _ _),
      by simpa [digitsValue] using holds_zero hzero⟩
  | false => exact ⟨_, _, rfl, writes_positional _, holds_shortest hzero hfinite .up⟩

/-- The text of a double in a document has a mark that no integer has. -/
theorem writesDouble_documented (hfinite : x.isFinite = true) : WritesDouble x (documented x) ∧
    ('.' ∈ (documented x).toList ∨ 'e' ∈ (documented x).toList) := by
  have hsigned : ∀ {c : Char} {cs : List Char}, c ∈ cs → c ∈ (signed x cs).toList := by
    intro c cs hc
    rw [signed, String.toList_ofList]
    split
    · exact List.mem_cons_of_mem _ hc
    · exact hc
  rw [documented]
  cases hzero : x.isZero with
  | true =>
    refine ⟨⟨['0'] ++ '.' :: ['0'], _, rfl, writes_point (digits_zeros 1) (digits_zeros 1)
      (List.cons_ne_nil _ _), ?_⟩, .inl (hsigned (by simp))⟩
    simpa [digitsValue] using holds_zero hzero
  | false =>
    have hholds := holds_shortest hzero hfinite .even
    dsimp only
    split
    · exact absurd ‹_› (by simp)
    split
    · obtain ⟨hwrites, hpoint⟩ := writes_positional_point (shortest .even x)
      exact ⟨⟨_, _, rfl, hwrites, hholds⟩, .inl (hsigned hpoint)⟩
    · obtain ⟨hwrites, hmark⟩ := writes_exponential (shortest .even x)
      exact ⟨⟨_, _, rfl, hwrites, hholds⟩, .inr (hsigned hmark)⟩

/-- A sign stands before digits, so it is told. -/
theorem signed_inj {cs ds : List Char} {p q : ℚ} (hcs : Writes cs p) (hds : Writes ds q)
    (h : signed x cs = signed y ds) : x.isNegative = y.isNegative ∧ cs = ds := by
  have hminus : ∀ {l : List Char} {r : ℚ}, Writes l r → ∀ l', '-' :: l' ≠ l := by
    rintro l r hl l' rfl
    obtain ⟨c, rest, hc, hdigit⟩ := hl.begins
    rw [← (List.cons.inj hc).1] at hdigit
    exact absurd hdigit (by decide)
  have hchars := congrArg String.toList h
  rw [signed, signed, String.toList_ofList, String.toList_ofList] at hchars
  cases hx : x.isNegative <;> cases hy : y.isNegative <;> rw [hx, hy] at hchars
  · exact ⟨rfl, hchars⟩
  · exact absurd hchars.symm (hminus hcs _)
  · exact absurd hchars (hminus hds _)
  · exact ⟨rfl, (List.cons.inj hchars).2⟩

/-- **A text is that of one double.** -/
theorem WritesDouble.unique {text : String} (hx : WritesDouble x text)
    (hy : WritesDouble y text) : x = y := by
  obtain ⟨cs, p, htext, hcs, hp⟩ := hx
  obtain ⟨ds, q, htext', hds, hq⟩ := hy
  obtain ⟨hsign, rfl⟩ := signed_inj hcs hds (htext.symm.trans htext')
  obtain rfl : p = q := hcs.value.symm.trans hds.value
  exact eq_of_sign_of_magnitude hsign (magnitude_eq_of_holds hp hq)

/-- **Finite doubles are told by their texts in documents.** -/
theorem documented_inj (hx : x.isFinite = true) (hy : y.isFinite = true)
    (h : documented x = documented y) : x = y :=
  (writesDouble_documented hx).1.unique (h ▸ (writesDouble_documented hy).1)

theorem WritesDouble.numeral {text : String} (h : WritesDouble x text) :
    ∀ c ∈ text.toList, isNumeral c = true := by
  obtain ⟨cs, q, rfl, hcs, -⟩ := h
  rw [signed, String.toList_ofList]
  split
  · exact List.forall_mem_cons.2 ⟨by decide, hcs.numeral⟩
  · exact hcs.numeral

/-- A double is finite, or its text has a letter that no numeral has. -/
theorem plain_cases (x : Double) :
    WritesDouble x (plain x) ∨
    (x.magnitude = Binary.Format.double.infinity ∧ plain x = signed x ['i', 'n', 'f']) ∨
    (x.isNaN = true ∧ plain x = "NaN") := by
  rcases Nat.lt_trichotomy x.magnitude Binary.Format.double.infinity with h | h | h
  · exact .inl (writesDouble_plain (decide_eq_true h))
  · have hnan : x.isNaN = false := decide_eq_false (by omega)
    have hinf : x.isInfinite = true := decide_eq_true h
    exact .inr (.inl ⟨h, by simp [plain, hnan, hinf]⟩)
  · have hnan : x.isNaN = true := decide_eq_true h
    exact .inr (.inr ⟨hnan, by simp [plain, hnan]⟩)

theorem not_writesDouble_infinity : ¬WritesDouble x (signed y ['i', 'n', 'f']) := fun h =>
  absurd (h.numeral 'n' (by rw [signed, String.toList_ofList]; split <;> simp)) (by decide)

theorem not_writesDouble_nan : ¬WritesDouble x "NaN" := fun h =>
  absurd (h.numeral 'N' (by decide)) (by decide)

theorem signed_infinity_inj (h : signed x ['i', 'n', 'f'] = signed y ['i', 'n', 'f']) :
    x.isNegative = y.isNegative := by
  cases hx : x.isNegative <;> cases hy : y.isNegative <;> simp [signed, hx, hy] at h ⊢

theorem signed_infinity_ne_nan : signed x ['i', 'n', 'f'] ≠ "NaN" := by
  cases hx : x.isNegative <;> simp [signed, hx]

/-- **Doubles are told by their plain texts**, but for one NaN from another. -/
theorem plain_eq_iff (x y : Double) :
    plain x = plain y ↔ x = y ∨ x.isNaN = true ∧ y.isNaN = true := by
  constructor
  · intro h
    rcases plain_cases x with hx | ⟨hx, htext⟩ | ⟨hx, htext⟩ <;>
      rcases plain_cases y with hy | ⟨hy, htext'⟩ | ⟨hy, htext'⟩
    · rw [← h] at hy
      exact .inl (hx.unique hy)
    · rw [h, htext'] at hx
      exact absurd hx not_writesDouble_infinity
    · rw [h, htext'] at hx
      exact absurd hx not_writesDouble_nan
    · rw [← h, htext] at hy
      exact absurd hy not_writesDouble_infinity
    · rw [htext, htext'] at h
      exact .inl (eq_of_sign_of_magnitude (signed_infinity_inj h) (hx.trans hy.symm))
    · rw [htext, htext'] at h
      exact absurd h signed_infinity_ne_nan
    · rw [← h, htext] at hy
      exact absurd hy not_writesDouble_nan
    · rw [htext, htext'] at h
      exact absurd h.symm signed_infinity_ne_nan
    · exact .inr ⟨hx, hy⟩
  · rintro (rfl | ⟨hx, hy⟩)
    · rfl
    · simp [plain, hx, hy]

end ActiveRow.Decimal
