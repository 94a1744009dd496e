import ActiveRow.Proofs.Decimal.Nearest
import ActiveRow.Proofs.Decimal.Texts

/-!
# What numerals say

The texts that are read as an integer or as a double, and what they say, as the grammar of numerals
has it: digits, a point among them, an exponent, a sign; or the name of an infinity or of the number
that is none. Reading a text gives what it says, and a text that says nothing is not read.

* `int64?_eq_some_iff`: the texts of integers.
* `unsigned?_eq_some_iff`, `double?_eq_some_iff`: the texts of doubles.
* `Numeral.isFinite_double_iff`: the numerals whose double is finite.
-/

namespace ActiveRow.Decimal

-- powers are those of core, also beside other instances
attribute [local instance (high)] instPowNat

/-! ### The grammar -/

/-- Digits with at most one point among them, and their number. -/
inductive Mantissa : List Char → ℚ → Prop where
  | whole {w : List Char} (hw : Digits w) (hne : w ≠ []) : Mantissa w (digitsValue w)
  | point {w f : List Char} (hw : Digits w) (hf : Digits f) (hne : w ++ f ≠ []) :
      Mantissa (w ++ '.' :: f) (digitsValue (w ++ f) / 10 ^ f.length)

/-- A text under a sign, and whether the sign is a minus. -/
inductive Signed {α : Type} (body : List Char → α → Prop) : List Char → Bool → α → Prop where
  | plain {cs : List Char} {a : α} (h : body cs a) : Signed body cs false a
  | plus {cs : List Char} {a : α} (h : body cs a) : Signed body ('+' :: cs) false a
  | minus {cs : List Char} {a : α} (h : body cs a) : Signed body ('-' :: cs) true a

/-- Digits and their number. -/
def Natural (cs : List Char) (n : ℕ) : Prop := cs ≠ [] ∧ Digits cs ∧ digitsValue cs = n

/-- A number with a sign. -/
def signedInt (negative : Bool) (n : ℕ) : ℤ := if negative then -n else n

/-- The text of an integer. -/
def Whole (cs : List Char) (n : ℤ) : Prop :=
  ∃ negative m, Signed Natural cs negative m ∧ n = signedInt negative m

/-- An exponent behind its mark, if there is one. -/
inductive Exponent : List Char → ℤ → Prop where
  | none : Exponent [] 0
  | some {mark : Char} (hmark : mark = 'e' ∨ mark = 'E') {cs : List Char} {n : ℤ}
      (h : Whole cs n) : Exponent (mark :: cs) n

/-- What a text says, its sign aside. -/
inductive Reading where
  | number (q : ℚ)
  | infinity
  | nan

namespace Reading

/-- The double of what a text says. -/
def double (negative : Bool) : Reading → Double
  | number q => .nearest negative q
  | infinity => .infinity negative
  | nan => .ofMagnitude negative Double.nan.magnitude

/-- Whether a text says a number that is short of the overflow of doubles. -/
def IsFinite : Reading → Prop
  | number q => q < Double.overflow
  | infinity => False
  | nan => False

end Reading

/-- An unsigned numeral and what it says. The names are read in either case of letters. -/
inductive Unsigned : List Char → Reading → Prop where
  | number {m e : List Char} {q : ℚ} {n : ℤ} (hm : Mantissa m q) (he : Exponent e n) :
      Unsigned (m ++ e) (.number (q * 10 ^ n))
  | infinity {cs : List Char} (h : cs.map Char.toLower ∈ ["inf".toList, "infinity".toList]) :
      Unsigned cs .infinity
  | nan {cs : List Char} (h : cs.map Char.toLower = "nan".toList) : Unsigned cs .nan

/-- A numeral. -/
abbrev Numeral : List Char → Bool → Reading → Prop := Signed Unsigned

/-! ### Digits -/

theorem isDigit_iff (c : Char) : c.isDigit = true ↔ 48 ≤ c.toNat ∧ c.toNat ≤ 57 := by
  simp only [Char.isDigit, Bool.and_eq_true, decide_eq_true_eq, UInt32.le_iff_toNat_le]
  rfl

theorem isDigit_eq : isDigit = Char.isDigit := by
  funext c
  rw [Bool.eq_iff_iff, isDigit_iff, isDigit, Bool.and_eq_true, decide_eq_true_eq, decide_eq_true_eq]

/-- The number of digits that are read onto others. -/
def digitsFrom (acc : ℕ) (cs : List Char) : ℕ := cs.foldl (fun n c => n * 10 + (c.toNat - 48)) acc

theorem le_digitsFrom (cs : List Char) : ∀ acc, acc ≤ digitsFrom acc cs := by
  induction cs with
  | nil => exact fun acc => le_rfl
  | cons c cs ih => exact fun acc => le_trans (by omega) (ih (acc * 10 + (c.toNat - 48)))

variable {limit : ℕ}

theorem naturalFrom_eq_ok_iff (cs : List Char) : ∀ {acc n : ℕ}, acc ≤ limit →
    (naturalFrom limit acc cs = .ok n ↔ Digits cs ∧ digitsFrom acc cs = n ∧ n ≤ limit) := by
  induction cs with
  | nil =>
    intro acc n hacc
    simp only [naturalFrom, Digits, digitsFrom, List.foldl_nil, Except.ok.injEq]
    exact ⟨fun h => ⟨nofun, h, h ▸ hacc⟩, fun h => h.2.1⟩
  | cons c cs ih =>
    intro acc n hacc
    have hfrom : digitsFrom acc (c :: cs) = digitsFrom (acc * 10 + (c.toNat - 48)) cs := rfl
    have hdigits : Digits (c :: cs) ↔ c.isDigit = true ∧ Digits cs := List.forall_mem_cons
    rw [naturalFrom, digit?, hfrom, hdigits, isDigit_iff]
    by_cases hc : 48 ≤ c.toNat ∧ c.toNat ≤ 57
    · simp only [if_pos hc]
      by_cases hle : acc * 10 + (c.toNat - 48) ≤ limit
      · rw [if_pos hle, ih hle]
        simp [hc]
      · -- the number only grows with more digits
        rw [if_neg hle]
        have hgrows := le_digitsFrom cs (acc * 10 + (c.toNat - 48))
        simp only [reduceCtorEq, false_iff]
        omega
    · simp [hc]

theorem natural_eq_ok_iff {cs : List Char} {n : ℕ} :
    natural limit cs = .ok n ↔ Natural cs n ∧ n ≤ limit := by
  cases cs with
  | nil => simp [natural, Natural]
  | cons c cs =>
    rw [natural, naturalFrom_eq_ok_iff _ (Nat.zero_le _)]
    · simp [Natural, digitsValue, digitsFrom, and_assoc]
    · simp

/-! ### Signs -/

/-- A text that does not begin with a sign. -/
def Bare (cs : List Char) : Prop := (∀ r, cs ≠ '+' :: r) ∧ ∀ r, cs ≠ '-' :: r

variable {α : Type} {body : List Char → α → Prop} {cs : List Char} {negative : Bool} {a : α}

theorem signed_of_bare (h : Bare cs) :
    Signed body cs negative a ↔ negative = false ∧ body cs a := by
  constructor
  · intro hs
    cases hs with
    | plain hbody => exact ⟨rfl, hbody⟩
    | plus => exact absurd rfl (h.1 _)
    | minus => exact absurd rfl (h.2 _)
  · rintro ⟨rfl, hbody⟩
    exact .plain hbody

section

variable (hbare : ∀ {cs a}, body cs a → Bare cs)

include hbare

theorem signed_plus : Signed body ('+' :: cs) negative a ↔ negative = false ∧ body cs a := by
  constructor
  · intro hs
    cases hs with
    | plain hbody => exact absurd rfl ((hbare hbody).1 _)
    | plus hbody => exact ⟨rfl, hbody⟩
  · rintro ⟨rfl, hbody⟩
    exact .plus hbody

theorem signed_minus : Signed body ('-' :: cs) negative a ↔ negative = true ∧ body cs a := by
  constructor
  · intro hs
    cases hs with
    | plain hbody => exact absurd rfl ((hbare hbody).2 _)
    | minus hbody => exact ⟨rfl, hbody⟩
  · rintro ⟨rfl, hbody⟩
    exact .minus hbody

end

theorem Digits.bare {w : List Char} (hw : Digits w) : Bare w := by
  constructor
  · rintro r rfl
    exact absurd (hw '+' List.mem_cons_self) (by decide)
  · rintro r rfl
    exact absurd (hw '-' List.mem_cons_self) (by decide)

theorem Natural.bare {n : ℕ} (h : Natural cs n) : Bare cs := h.2.1.bare

/-! ### Integers -/

theorem whole_plus {n : ℤ} : Whole ('+' :: cs) n ↔ ∃ m : ℕ, Natural cs m ∧ n = m := by
  simp [Whole, signed_plus Natural.bare, signedInt]

theorem whole_minus {n : ℤ} : Whole ('-' :: cs) n ↔ ∃ m : ℕ, Natural cs m ∧ n = -m := by
  simp [Whole, signed_minus Natural.bare, signedInt]

theorem whole_of_bare (h : Bare cs) {n : ℤ} : Whole cs n ↔ ∃ m : ℕ, Natural cs m ∧ n = m := by
  simp [Whole, signed_of_bare h, signedInt]

/-- The limit on digits, as a range of the integers that they stand for. -/
theorem map_natural_eq_ok_iff {f : ℕ → ℤ} {low high : ℤ}
    (hrange : ∀ m : ℕ, m ≤ limit ↔ low ≤ f m ∧ f m < high) {n : ℤ} :
    (natural limit cs).map f = .ok n ↔
      (∃ m : ℕ, Natural cs m ∧ n = f m) ∧ low ≤ n ∧ n < high := by
  constructor
  · intro h
    cases hm : natural limit cs with
    | error cause =>
      rw [hm] at h
      cases h
    | ok m =>
      rw [hm] at h
      cases h
      obtain ⟨hnatural, hle⟩ := natural_eq_ok_iff.1 hm
      exact ⟨⟨m, hnatural, rfl⟩, (hrange m).1 hle⟩
  · rintro ⟨⟨m, hm, rfl⟩, hin⟩
    rw [natural_eq_ok_iff.2 ⟨hm, (hrange m).2 hin⟩]
    rfl

/-- **The texts of integers** of 64 bits. -/
theorem integer_eq_ok_iff {n : ℤ} : integer 64 cs = .ok n ↔
    Whole cs n ∧ -0x8000000000000000 ≤ n ∧ n < 0x8000000000000000 := by
  unfold integer
  split
  · have hbare : Bare [] := ⟨nofun, nofun⟩
    simp [whole_of_bare hbare, Natural]
  · rw [whole_plus]
    exact map_natural_eq_ok_iff fun m => by simp; omega
  · rw [whole_minus]
    exact map_natural_eq_ok_iff fun m => by simp; omega
  · rename_i hplus hminus
    rw [whole_of_bare ⟨hplus, hminus⟩]
    exact map_natural_eq_ok_iff fun m => by simp; omega

theorem int64?_eq_some_iff {n : Int64} : int64? cs = some n ↔ Whole cs n.toInt := by
  have hrange : -0x8000000000000000 ≤ n.toInt ∧ n.toInt < 0x8000000000000000 :=
    ⟨n.le_toInt, n.toInt_lt⟩
  unfold int64?
  cases h : integer 64 cs with
  | error cause =>
    simp only [reduceCtorEq, false_iff]
    intro hwhole
    rw [integer_eq_ok_iff.2 ⟨hwhole, hrange⟩] at h
    cases h
  | ok k =>
    have hk := integer_eq_ok_iff.1 h
    constructor
    · rintro ⟨⟩
      rw [Word.toInt_ofInt hk.2]
      exact hk.1
    · intro hwhole
      rw [integer_eq_ok_iff.2 ⟨hwhole, hrange⟩] at h
      cases h
      simp

/-! ### Unsigned numerals -/

theorem exponent?_eq_some_iff {n : ℤ} : exponent? cs = some n ↔ Whole cs n := by
  have hvalue (ds : List Char) (f : ℤ → ℤ) :
      ((if ds ≠ [] ∧ ds.all isDigit = true then some (digitsValue ds : ℤ) else none).map f =
        some n) ↔ ∃ m : ℕ, Natural ds m ∧ n = f m := by
    have hall : ds.all isDigit = true ↔ Digits ds := by rw [isDigit_eq, List.all_eq_true, Digits]
    by_cases h : ds ≠ [] ∧ ds.all isDigit = true
    · have hdigits := hall.1 h.2
      rw [if_pos h]
      simp [Natural, h.1, hdigits, eq_comm]
    · rw [if_neg h]
      simp only [Option.map_none, reduceCtorEq, false_iff]
      rintro ⟨m, hm, -⟩
      exact h ⟨hm.1, hall.2 hm.2.1⟩
  unfold exponent?
  dsimp only
  split
  · rw [whole_plus]
    simpa using hvalue _ id
  · rw [whole_minus]
    exact hvalue _ _
  · rename_i hplus hminus
    rw [whole_of_bare ⟨hplus, hminus⟩]
    simpa using hvalue _ id

/-- Whether no digit stands in front. -/
def NoDigit (cs : List Char) : Prop := ∀ c ∈ cs.head?, isDigit c = false

theorem takeWhile_digits {w : List Char} (hw : Digits w) (hcs : NoDigit cs) :
    (w ++ cs).takeWhile isDigit = w ∧ (w ++ cs).dropWhile isDigit = cs := by
  rw [isDigit_eq]
  rw [NoDigit, isDigit_eq] at hcs
  rw [List.takeWhile_append_of_pos hw, List.dropWhile_append_of_pos hw]
  cases cs with
  | nil => simp
  | cons c cs =>
    have hc : ¬c.isDigit = true := by simp [hcs c rfl]
    rw [List.takeWhile_cons_of_neg hc, List.dropWhile_cons_of_neg hc, List.append_nil]
    exact ⟨rfl, rfl⟩

theorem Exponent.noDigit {e : List Char} {n : ℤ} (h : Exponent e n) : NoDigit e := by
  cases h with
  | none => exact nofun
  | some hmark _ =>
    rintro c ⟨⟩
    rcases hmark with rfl | rfl <;> decide

theorem digits_takeWhile (cs : List Char) : Digits (cs.takeWhile isDigit) := by
  rw [isDigit_eq]
  exact List.all_eq_true.1 List.all_takeWhile

/-- The exponent that is read behind digits. -/
def exponentOrZero? : List Char → Option ℤ
  | [] => some 0
  | c :: r => if c = 'e' ∨ c = 'E' then exponent? r else none

theorem exponentOrZero?_eq_some_iff {n : ℤ} : exponentOrZero? cs = some n ↔ Exponent cs n := by
  cases cs with
  | nil =>
    constructor
    · rintro ⟨⟩
      exact .none
    · rintro ⟨⟩
      rfl
  | cons c cs =>
    rw [exponentOrZero?]
    constructor
    · intro h
      split at h
      · exact .some ‹_› (exponent?_eq_some_iff.1 h)
      · cases h
    · rintro (_ | ⟨hmark, hn⟩)
      rw [if_pos hmark]
      exact exponent?_eq_some_iff.2 hn

theorem map_exponentOrZero? (f : ℤ → Double) : (exponentOrZero? cs).map f =
    match cs with
    | [] => some 0 >>= fun e => pure (f e)
    | c :: r =>
      if c = 'e' ∨ c = 'E' then exponent? r >>= fun e => pure (f e)
      else none >>= fun e => pure (f e) := by
  cases cs with
  | nil => rfl
  | cons c r =>
    rw [exponentOrZero?]
    by_cases hc : c = 'e' ∨ c = 'E'
    · simp only [if_pos hc]
      cases exponent? r <;> rfl
    · simp only [if_neg hc]
      rfl

section

variable {r : List Char}

/-- Digits with a point behind them. -/
theorem unsigned?_point (negative : Bool) (h : cs.dropWhile isDigit = '.' :: r) :
    unsigned? negative cs =
      if cs.takeWhile isDigit ++ r.takeWhile isDigit = [] then none
      else (exponentOrZero? (r.dropWhile isDigit)).map fun e =>
        toDouble negative (digitsValue (cs.takeWhile isDigit ++ r.takeWhile isDigit))
          (e - (r.takeWhile isDigit).length) := by
  unfold unsigned?
  simp only [h]
  by_cases hempty : cs.takeWhile isDigit ++ r.takeWhile isDigit = []
  · obtain ⟨hw, hf⟩ := List.append_eq_nil_iff.1 hempty
    simp [hw, hf]
  · have hsome : ¬((cs.takeWhile isDigit).isEmpty && (r.takeWhile isDigit).isEmpty) = true := by
      simpa [List.isEmpty_iff] using hempty
    rw [if_neg hempty, if_neg hsome]
    exact (map_exponentOrZero? _).symm

/-- Digits without a point. -/
theorem unsigned?_whole (negative : Bool) (h : ∀ r, cs.dropWhile isDigit ≠ '.' :: r) :
    unsigned? negative cs =
      if cs.takeWhile isDigit = [] then none
      else (exponentOrZero? (cs.dropWhile isDigit)).map fun e =>
        toDouble negative (digitsValue (cs.takeWhile isDigit)) e := by
  unfold unsigned?
  dsimp only
  split
  · exact absurd ‹_› (h _)
  · simp only [List.isEmpty_nil, Bool.and_true, List.isEmpty_iff, List.append_nil,
      List.length_nil, Nat.cast_zero, Int.sub_zero]
    by_cases hempty : cs.takeWhile isDigit = []
    · simp [hempty]
    · rw [if_neg hempty, if_neg hempty]
      exact (map_exponentOrZero? _).symm

end

/-- Moving the point of digits changes the exponent. -/
theorem nearest_point (negative : Bool) (w f : List Char) (e : ℤ) :
    toDouble negative (digitsValue (w ++ f)) (e - f.length) =
      .nearest negative (digitsValue (w ++ f) / 10 ^ f.length * 10 ^ e) := by
  have hten : (10 : ℚ) ≠ 0 := by norm_num
  rw [toDouble_eq, zpow_sub₀ hten, zpow_natCast, mul_div_assoc', div_mul_eq_mul_div]

theorem exists_of_unsigned? {x : Double} (h : unsigned? negative cs = some x) :
    ∃ m e q n, cs = m ++ e ∧ Mantissa m q ∧ Exponent e n ∧
      x = .nearest negative (q * 10 ^ n) := by
  have hsplit := (List.takeWhile_append_dropWhile (p := isDigit) (l := cs)).symm
  have hw := digits_takeWhile cs
  -- only a point directly behind the first digits is one
  by_cases hpoint : ∃ r, cs.dropWhile isDigit = '.' :: r
  · obtain ⟨r, hr⟩ := hpoint
    rw [unsigned?_point negative hr] at h
    split at h
    · cases h
    · rename_i hne
      obtain ⟨e, he, rfl⟩ := Option.map_eq_some_iff.1 h
      refine ⟨_, r.dropWhile isDigit, _, e, ?_, .point hw (digits_takeWhile r) hne,
        exponentOrZero?_eq_some_iff.1 he, nearest_point ..⟩
      conv_lhs => rw [hsplit, hr]
      simp [List.takeWhile_append_dropWhile]
  · have hnone : ∀ r, cs.dropWhile isDigit ≠ '.' :: r := fun r hr => hpoint ⟨r, hr⟩
    rw [unsigned?_whole negative hnone] at h
    split at h
    · cases h
    · rename_i hne
      obtain ⟨e, he, rfl⟩ := Option.map_eq_some_iff.1 h
      exact ⟨_, _, _, e, hsplit, .whole hw hne, exponentOrZero?_eq_some_iff.1 he,
        toDouble_eq ..⟩

/-- Neither a point nor an exponent begins with a digit, so digits are cut off where they end. -/
theorem Mantissa.unsigned?_eq {m e : List Char} {q : ℚ} {n : ℤ} (hm : Mantissa m q)
    (he : Exponent e n) (negative : Bool) :
    unsigned? negative (m ++ e) = some (.nearest negative (q * 10 ^ n)) := by
  have hexponent := exponentOrZero?_eq_some_iff.2 he
  cases hm with
  | whole hw hne =>
    obtain ⟨htake, hdrop⟩ := takeWhile_digits hw he.noDigit
    have hnone : ∀ r, (m ++ e).dropWhile isDigit ≠ '.' :: r := by
      rw [hdrop]
      rintro r rfl
      cases he with
      | some hmark => rcases hmark with h | h <;> exact absurd h (by decide)
    rw [unsigned?_whole negative hnone, htake, hdrop, if_neg hne, hexponent, Option.map_some,
      toDouble_eq]
  | @point w f hw hf hne =>
    have hmark : NoDigit ('.' :: (f ++ e)) := by
      rintro c ⟨⟩
      decide
    obtain ⟨htake, hdrop⟩ := takeWhile_digits hw hmark
    obtain ⟨htake', hdrop'⟩ := takeWhile_digits hf he.noDigit
    rw [List.append_assoc, List.cons_append, unsigned?_point negative hdrop, htake, htake',
      hdrop', if_neg hne, hexponent, Option.map_some, nearest_point]

/-- **What is read from digits** is the double nearest to their number. -/
theorem unsigned?_eq_some_iff {x : Double} : unsigned? negative cs = some x ↔
    ∃ m e q n, cs = m ++ e ∧ Mantissa m q ∧ Exponent e n ∧
      x = .nearest negative (q * 10 ^ n) := by
  constructor
  · exact exists_of_unsigned?
  · rintro ⟨m, e, q, n, rfl, hm, he, rfl⟩
    exact hm.unsigned?_eq he negative

/-! ### Names and signs -/

theorem Mantissa.exists_cons {m : List Char} {q : ℚ} (h : Mantissa m q) :
    ∃ c r, m = c :: r ∧ (c.isDigit = true ∨ c = '.') := by
  cases h with
  | @whole w hw hne =>
    obtain ⟨c, r, rfl⟩ := List.exists_cons_of_ne_nil hne
    exact ⟨c, r, rfl, .inl (hw c List.mem_cons_self)⟩
  | @point w f hw hf hne =>
    -- the point is the first character if no digit stands in front of it
    cases w with
    | nil => exact ⟨_, _, rfl, .inr rfl⟩
    | cons c w => exact ⟨_, _, rfl, .inl (hw c List.mem_cons_self)⟩

/-- A mantissa begins with a digit or a point, which no name does. -/
theorem Mantissa.map_toLower_ne {m e : List Char} {q : ℚ} (h : Mantissa m q) :
    (m ++ e).map Char.toLower ∉ ["inf".toList, "infinity".toList, "nan".toList] := by
  obtain ⟨c, r, rfl, hc⟩ := h.exists_cons
  have hlower : c.toLower = c := by
    rcases hc with hc | rfl
    · have hupper : ¬('A'.val ≤ c.val ∧ c.val ≤ 'Z'.val) := by
        have hrange := (isDigit_iff c).1 hc
        simp only [UInt32.le_iff_toNat_le]
        show ¬(65 ≤ c.toNat ∧ c.toNat ≤ 90)
        omega
      exact dif_neg hupper
    · rfl
  have hletter : c ≠ 'i' ∧ c ≠ 'n' := by
    constructor <;> rintro rfl <;> exact absurd hc (by decide)
  simp [hlower, hletter]

theorem Unsigned.bare {r : Reading} (h : Unsigned cs r) : Bare cs := by
  have hplus : '+'.toLower = '+' := rfl
  have hminus : '-'.toLower = '-' := rfl
  cases h with
  | number hm _ =>
    obtain ⟨c, tail, rfl, hc⟩ := hm.exists_cons
    constructor <;> rintro r ⟨⟩ <;> exact absurd hc (by decide)
  | infinity h => constructor <;> rintro r rfl <;> simp [hplus, hminus] at h
  | nan h => constructor <;> rintro r rfl <;> simp [hplus, hminus] at h

/-- What is read from a text without its sign. -/
def unsignedOrName? (negative : Bool) (cs : List Char) : Option Double :=
  match unsigned? negative cs with
  | some x => some x
  | none =>
    let name := String.ofList (cs.map Char.toLower)
    if name = "inf" ∨ name = "infinity" then some (Double.infinity negative)
    else if name = "nan" then some (Double.ofMagnitude negative Double.nan.magnitude)
    else none

theorem unsignedOrName?_eq_some_iff {x : Double} : unsignedOrName? negative cs = some x ↔
    ∃ r, Unsigned cs r ∧ x = r.double negative := by
  have hname (name : String) : String.ofList (cs.map Char.toLower) = name ↔
      cs.map Char.toLower = name.toList := by
    rw [← String.toList_inj, String.toList_ofList]
  unfold unsignedOrName?
  cases h : unsigned? negative cs with
  | some y =>
    obtain ⟨m, e, q, n, hcs, hm, he, rfl⟩ := unsigned?_eq_some_iff.1 h
    have hnoName := hcs ▸ hm.map_toLower_ne (e := e)
    constructor
    · rintro ⟨⟩
      exact ⟨.number (q * 10 ^ n), hcs ▸ Unsigned.number hm he, rfl⟩
    · rintro ⟨r, hr, rfl⟩
      cases hr with
      | number hm he => exact h.symm.trans (hm.unsigned?_eq he negative)
      | infinity hi => exact absurd (List.mem_append_left ["nan".toList] hi) hnoName
      | nan hn => exact absurd (by simp [hn]) hnoName
  | none =>
    simp only [hname]
    constructor
    · intro hx
      split at hx
      · cases hx
        exact ⟨_, .infinity (by simpa using ‹_›), rfl⟩
      · split at hx
        · cases hx
          exact ⟨_, .nan ‹_›, rfl⟩
        · cases hx
    · rintro ⟨r, hr, rfl⟩
      cases hr with
      | number hm he =>
        rw [hm.unsigned?_eq he negative] at h
        cases h
      | infinity hi => rw [if_pos (by simpa using hi), Reading.double]
      | nan hn => rw [if_neg (by simp [hn]), if_pos hn, Reading.double]

/-- **The texts of doubles**: the double is that of what the text says. -/
theorem double?_eq_some_iff {x : Double} : double? cs = some x ↔
    ∃ negative r, Numeral cs negative r ∧ x = r.double negative := by
  unfold double?
  dsimp only
  split
  · show unsignedOrName? false _ = some x ↔ _
    simp [Numeral, signed_plus Unsigned.bare, unsignedOrName?_eq_some_iff]
  · show unsignedOrName? true _ = some x ↔ _
    simp [Numeral, signed_minus Unsigned.bare, unsignedOrName?_eq_some_iff]
  · rename_i hplus hminus
    show unsignedOrName? false _ = some x ↔ _
    simp [Numeral, signed_of_bare ⟨hplus, hminus⟩, unsignedOrName?_eq_some_iff]

/-! ### Finite numerals -/

theorem Mantissa.nonneg {m : List Char} {q : ℚ} (h : Mantissa m q) : 0 ≤ q := by
  cases h with
  | whole _ _ => positivity
  | point _ _ _ => positivity

theorem Unsigned.isFinite_double_iff {r : Reading} (h : Unsigned cs r) :
    (r.double negative).isFinite = true ↔ r.IsFinite := by
  cases h with
  | @number m e q n hm _ =>
    have hten : (0 : ℚ) ≤ 10 ^ n := by positivity
    exact Double.isFinite_nearest_iff (mul_nonneg hm.nonneg hten)
  | infinity _ => simp [Reading.double, Reading.IsFinite, Double.isFinite_infinity]
  | nan _ => simp [Reading.double, Reading.IsFinite, Double.isFinite_ofMagnitude_nan]

/-- A number from the overflow on is read as an infinity. -/
theorem Reading.double_of_not_finite {r : Reading} (hnan : r ≠ nan) (h : ¬r.IsFinite) :
    r.double negative = .infinity negative := by
  cases r with
  | number q => exact Double.nearest_of_overflow (not_lt.1 h)
  | infinity => rfl
  | nan => exact absurd rfl hnan

/-- **A numeral has a finite double** when it says a number short of the overflow. -/
theorem Numeral.isFinite_double_iff {r : Reading} (h : Numeral cs negative r) :
    (r.double negative).isFinite = true ↔ r.IsFinite := by
  cases h with
  | plain h => exact h.isFinite_double_iff
  | plus h => exact h.isFinite_double_iff
  | minus h => exact h.isFinite_double_iff

/-- **A text says one double**, however it is taken apart. -/
theorem Numeral.double_unique {negative' : Bool} {r r' : Reading} (h : Numeral cs negative r)
    (h' : Numeral cs negative' r') : r.double negative = r'.double negative' := by
  have hr := double?_eq_some_iff.2 ⟨negative, r, h, rfl⟩
  have hr' := double?_eq_some_iff.2 ⟨negative', r', h', rfl⟩
  exact Option.some.inj (hr.symm.trans hr')

end ActiveRow.Decimal
