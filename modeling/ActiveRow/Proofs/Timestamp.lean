import ActiveRow.Timestamp.Written
import ActiveRow.Proofs.Decimal.Texts
import ActiveRow.Proofs.Text.Spans

/-!
# Moments and their texts

The text of a moment gives its clock: the minute, the second in it, where a leap second counts as
one more, and the fraction. Each field ends at a character that is no digit. So moments are told by
their texts as far as their clocks differ, and these differ unless a leap second stands within a
minute, where it reads as the second that follows.

* `Calendar.dayNumber_date`: the date of a day gives its number back.
* `Timestamp.written_eq_iff`: moments with one text are those with one clock.
* `Timestamp.clock_inj`: regular moments have clocks of their own.
-/

namespace ActiveRow

namespace Calendar

/-- The year within its era, and the day within the year, in the days of four centuries. -/
theorem dayOfYear_bounds {d y : Int} (h : 0 ≤ d) (h' : d < 146097)
    (hy : y = (d - d / 1460 + d / 36524 - d / 146096) / 365) :
    (0 ≤ y ∧ y ≤ 399) ∧
      0 ≤ d - (365 * y + y / 4 - y / 100) ∧ d - (365 * y + y / 4 - y / 100) ≤ 365 := by
  have hyear : 0 ≤ y ∧ y ≤ 399 := by omega
  refine ⟨hyear, ?_⟩
  by_cases hlast : d = 146096
  · subst hlast
    omega
  · have hera : d / 146096 = 0 := by omega
    have hcentury : y / 100 = d / 36524 := by
      have hg : d / 36524 = 0 ∨ d / 36524 = 1 ∨ d / 36524 = 2 ∨ d / 36524 = 3 := by omega
      rcases hg with hg | hg | hg | hg <;> omega
    have hlow : y / 4 ≤ d / 1460 := by omega
    have hhigh : d / 1460 ≤ y / 4 + 1 := by omega
    omega

/-- **The day number of a date** is that which the date is of. -/
theorem dayNumber_date (days : Int) :
    dayNumber (date days).1 (date days).2.1 (date days).2.2 = days := by
  obtain ⟨z, hz⟩ : ∃ z, z = days + 719468 := ⟨_, rfl⟩
  obtain ⟨era, hera⟩ : ∃ era, era = z / 146097 := ⟨_, rfl⟩
  obtain ⟨d, hd⟩ : ∃ d, d = z - era * 146097 := ⟨_, rfl⟩
  obtain ⟨y, hy⟩ : ∃ y, y = (d - d / 1460 + d / 36524 - d / 146096) / 365 := ⟨_, rfl⟩
  obtain ⟨k, hk⟩ : ∃ k, k = d - (365 * y + y / 4 - y / 100) := ⟨_, rfl⟩
  obtain ⟨m, hm⟩ : ∃ m, m = (5 * k + 2) / 153 := ⟨_, rfl⟩
  obtain ⟨day, hday⟩ : ∃ day, day = (k - (153 * m + 2) / 5 + 1).toNat := ⟨_, rfl⟩
  obtain ⟨month, hmonth⟩ : ∃ month, month = if m < 10 then (m + 3).toNat else (m - 9).toNat :=
    ⟨_, rfl⟩
  have hdate : date days = (y + era * 400 + (if month ≤ 2 then 1 else 0), month, day) := by
    simp only [date, hmonth, hday, hm, hk, hy, hd, hera, hz]
  obtain ⟨hyear, hk0, hk1⟩ := dayOfYear_bounds (d := d) (by omega) (by omega) hy
  rw [← hk] at hk0 hk1
  have hmonths : 0 ≤ m ∧ m ≤ 11 := by omega
  have hcivil : (if month ≤ 2 then y + era * 400 + (if month ≤ 2 then 1 else 0) - 1
      else y + era * 400 + (if month ≤ 2 then 1 else 0)) = y + era * 400 := by
    split <;> simp
  have hback : ((month : Int) + 9) % 12 = m := by
    rw [hmonth]
    split <;> omega
  have hera' : (y + era * 400) / 400 = era := by omega
  rw [hdate, dayNumber]
  simp only [hcivil, hera', hback, Int.add_sub_cancel]
  omega

theorem date_inj {a b : Int} (h : date a = date b) : a = b := by
  rw [← dayNumber_date a, h, dayNumber_date b]

end Calendar

namespace Timestamp

open Decimal (Digits digitsValue)

/-! ### Fields -/

theorem toList_padded (width n : Nat) : (padded width n).toList =
    Decimal.zeros (width - (Nat.repr n).length) ++ (Nat.repr n).toList := by
  simp [padded, String.toList_append, Decimal.zeros]

theorem digits_padded (width n : Nat) : Digits (padded width n).toList := by
  rw [toList_padded]
  exact (Decimal.digits_zeros _).append (Decimal.digits_repr n)

theorem digitsValue_padded (width n : Nat) : digitsValue (padded width n).toList = n := by
  rw [toList_padded, Decimal.digitsValue_append, Decimal.digitsValue_zeros,
    Decimal.digitsValue_repr, Nat.zero_mul, Nat.zero_add]

theorem length_padded {width n : Nat} (hw : 0 < width) (hn : n < 10 ^ width) :
    (padded width n).toList.length = width := by
  have hle := (Nat.length_repr_le_iff hw).2 hn
  rw [toList_padded, List.length_append, String.length_toList, Decimal.zeros,
    List.length_replicate]
  omega

/-- A run of digits ends at what is none. -/
theorem digits_cut {x y r s : List Char} {c d : Char} (hx : Digits x) (hy : Digits y)
    (hc : c.isDigit = false) (hd : d.isDigit = false) (h : x ++ c :: r = y ++ d :: s) :
    x = y ∧ c = d ∧ r = s := by
  obtain ⟨hxy, hrest⟩ := Text.span_unique (p := Char.isDigit) hx hy (by simpa using hc)
    (by simpa using hd) h
  exact ⟨hxy, List.cons.inj hrest⟩

theorem padded_cut {width m n : Nat} {r s : List Char} {c d : Char} (hc : c.isDigit = false)
    (hd : d.isDigit = false)
    (h : (padded width m).toList ++ c :: r = (padded width n).toList ++ d :: s) :
    m = n ∧ r = s := by
  obtain ⟨htext, -, hrest⟩ := digits_cut (digits_padded _ _) (digits_padded _ _) hc hd h
  refine ⟨?_, hrest⟩
  rw [← digitsValue_padded width m, htext, digitsValue_padded]

/-- What stands before the digits of a year. -/
def yearSign (year : Int) : List Char :=
  if 0 ≤ year ∧ year ≤ 9999 then [] else if year < 0 then ['-'] else ['+']

theorem toList_yearText (year : Int) :
    (yearText year).toList = yearSign year ++ (padded 4 year.natAbs).toList := by
  unfold yearText yearSign
  split
  · rw [show year.toNat = year.natAbs by omega, List.nil_append]
  · split <;> rw [String.toList_append] <;> rfl

theorem year_eq {y z : Int} (hsign : yearSign y = yearSign z) (habs : y.natAbs = z.natAbs) :
    y = z := by
  have hminus : ∀ year, yearSign year = ['-'] ↔ year < 0 := by
    intro year
    unfold yearSign
    split
    · simp
      omega
    · split <;> simp_all
  have hboth : y < 0 ↔ z < 0 := by rw [← hminus, ← hminus, hsign]
  omega

theorem yearText_cut {y z : Int} {r s : List Char}
    (h : (yearText y).toList ++ '-' :: r = (yearText z).toList ++ '-' :: s) : y = z ∧ r = s := by
  have hsign : ∀ year, ∀ c ∈ yearSign year, (!c.isDigit) = true := by
    intro year
    unfold yearSign
    split
    · simp
    · split <;> simp
  have hdigits : ∀ (n : Nat) (r : List Char),
      ∀ c ∈ ((padded 4 n).toList ++ r).head?, (!c.isDigit) = false := by
    intro n r c hc
    have hne : (padded 4 n).toList ≠ [] := by simp [toList_padded, Nat.toList_repr]
    rw [List.head?_append_of_ne_nil _ hne] at hc
    simp [digits_padded 4 n c (List.mem_of_mem_head? hc)]
  rw [toList_yearText, toList_yearText, List.append_assoc, List.append_assoc] at h
  obtain ⟨hs, hrest⟩ := Text.span_unique (p := fun c => !c.isDigit) (hsign y) (hsign z)
    (hdigits _ _) (hdigits _ _) h
  obtain ⟨habs, hrest⟩ := padded_cut (by decide) (by decide) hrest
  exact ⟨year_eq hs habs, hrest⟩

/-- A fraction of a second that is not zero: a point, and all its digits but zeros at the end. -/
theorem fractionText_eq {n : Nat} (hn : n ≠ 0) (hlt : n < 1000000000) :
    ∃ w v, 0 < w ∧ v < 10 ^ w ∧ v * 10 ^ (9 - w) = n ∧
      (fractionText n).toList = '.' :: (padded w v).toList := by
  unfold fractionText
  rw [if_neg hn]
  split
  · exact ⟨3, n / 1000000, by decide, by omega, by omega, by rw [String.toList_append]; rfl⟩
  split
  · exact ⟨6, n / 1000, by decide, by omega, by omega, by rw [String.toList_append]; rfl⟩
  · exact ⟨9, n, by decide, by omega, by omega, by rw [String.toList_append]; rfl⟩

theorem fractionText_cut {m n : Nat} (hm : m < 1000000000) (hn : n < 1000000000) {r s : List Char}
    (h : (fractionText m).toList ++ '+' :: r = (fractionText n).toList ++ '+' :: s) : m = n := by
  have hzero : (fractionText 0).toList = [] := rfl
  by_cases hm0 : m = 0 <;> by_cases hn0 : n = 0
  · rw [hm0, hn0]
  · obtain ⟨w, v, -, -, -, htext⟩ := fractionText_eq hn0 hn
    rw [hm0, hzero, htext] at h
    cases h
  · obtain ⟨w, v, -, -, -, htext⟩ := fractionText_eq hm0 hm
    rw [hn0, hzero, htext] at h
    cases h
  · obtain ⟨w, v, hw, hv, hvalue, htext⟩ := fractionText_eq hm0 hm
    obtain ⟨w', v', hw', hv', hvalue', htext'⟩ := fractionText_eq hn0 hn
    rw [htext, htext', List.cons_append, List.cons_append, List.cons_inj_right] at h
    obtain ⟨hdigits, -⟩ :=
      digits_cut (digits_padded w v) (digits_padded w' v') (by decide) (by decide) h
    obtain rfl : w = w' := by
      rw [← length_padded hw hv, hdigits, length_padded hw' hv']
    obtain rfl : v = v' := by
      rw [← digitsValue_padded w v, hdigits, digitsValue_padded]
    exact hvalue.symm.trans hvalue'

/-! ### The clock -/

/-- What is written of a moment: the minute, the second in it, a leap second counted, and the
nanoseconds of that second. -/
structure Clock where
  minute : Int
  second : Nat
  fraction : Nat
  deriving DecidableEq

def clock (t : Timestamp) : Clock :=
  ⟨t.seconds / 60, (t.seconds % 60).toNat + t.nanos / 1000000000, t.nanos % 1000000000⟩

/-- The characters of a moment. -/
def Clock.chars (k : Clock) : List Char :=
  let date := Calendar.date (k.minute / 1440)
  (yearText date.1).toList ++ '-' :: ((padded 2 date.2.1).toList ++ '-' ::
    ((padded 2 date.2.2).toList ++ 'T' ::
    ((padded 2 ((k.minute % 1440).toNat / 60)).toList ++ ':' ::
    ((padded 2 ((k.minute % 1440).toNat % 60)).toList ++ ':' ::
    ((padded 2 k.second).toList ++ ((fractionText k.fraction).toList ++
      '+' :: ['0', '0', ':', '0', '0']))))))

theorem toList_written (t : Timestamp) : t.written.toList = t.clock.chars := by
  have hday : t.seconds / 60 / 1440 = t.seconds / 86400 := by omega
  have hhour : t.secondOfDay / 3600 = (t.seconds / 60 % 1440).toNat / 60 := by
    unfold secondOfDay
    omega
  have hminute : t.secondOfDay / 60 % 60 = (t.seconds / 60 % 1440).toNat % 60 := by
    unfold secondOfDay
    omega
  have hsecond : t.secondOfDay % 60 = (t.seconds % 60).toNat := by
    unfold secondOfDay
    omega
  have hmarks : "-".toList = ['-'] ∧ "T".toList = ['T'] ∧ ":".toList = [':'] ∧
      "+00:00".toList = '+' :: ['0', '0', ':', '0', '0'] := ⟨rfl, rfl, rfl, rfl⟩
  simp only [written, Clock.chars, clock, day, hday, hhour, hminute, hsecond, String.toList_append,
    List.append_assoc, hmarks, List.cons_append, List.nil_append]

/-- Seconds end at the point of a fraction or at the offset. -/
theorem second_cut {m n a b : Nat} (ha : a < 1000000000) (hb : b < 1000000000) {r s : List Char}
    (h : (padded 2 m).toList ++ ((fractionText a).toList ++ '+' :: r) =
      (padded 2 n).toList ++ ((fractionText b).toList ++ '+' :: s)) : m = n ∧ a = b := by
  have hends : ∀ (a : Nat) (r : List Char), a < 1000000000 →
      ∀ c ∈ ((fractionText a).toList ++ '+' :: r).head?, c.isDigit = false := by
    intro a r ha c hc
    by_cases hzero : a = 0
    · subst hzero
      obtain rfl : c = '+' := by simpa [fractionText, eq_comm] using hc
      rfl
    · obtain ⟨w, v, -, -, -, htext⟩ := fractionText_eq hzero ha
      rw [htext] at hc
      obtain rfl : c = '.' := by simpa [eq_comm] using hc
      rfl
  obtain ⟨htext, hrest⟩ := Text.span_unique (p := Char.isDigit) (digits_padded 2 m)
    (digits_padded 2 n) (hends a r ha) (hends b s hb) h
  refine ⟨?_, fractionText_cut ha hb hrest⟩
  rw [← digitsValue_padded 2 m, htext, digitsValue_padded]

theorem Clock.chars_inj {k l : Clock} (hk : k.fraction < 1000000000) (hl : l.fraction < 1000000000)
    (h : k.chars = l.chars) : k = l := by
  obtain ⟨hyear, h⟩ := yearText_cut h
  obtain ⟨hmonth, h⟩ := padded_cut (by decide) (by decide) h
  obtain ⟨hday, h⟩ := padded_cut (by decide) (by decide) h
  obtain ⟨hhour, h⟩ := padded_cut (by decide) (by decide) h
  obtain ⟨hminute, h⟩ := padded_cut (by decide) (by decide) h
  obtain ⟨hsecond, hfraction⟩ := second_cut hk hl h
  have hdays := Calendar.date_inj (Prod.ext hyear (Prod.ext hmonth hday))
  have hminutes : k.minute = l.minute := by omega
  cases k
  cases l
  simp_all

/-- **Moments are told by their texts** as far as their clocks differ. -/
theorem written_eq_iff (t u : Timestamp) : t.written = u.written ↔ t.clock = u.clock := by
  rw [← String.toList_inj, toList_written, toList_written]
  exact ⟨Clock.chars_inj (Nat.mod_lt _ (by decide)) (Nat.mod_lt _ (by decide)),
    congrArg Clock.chars⟩

/-- Whether a leap second, if there is one, ends its minute. -/
def isRegular (t : Timestamp) : Bool :=
  decide (t.nanos < 1000000000) || decide (t.seconds % 60 = 59)

/-- **Regular moments have clocks of their own.** -/
theorem clock_inj {t u : Timestamp} (ht : t.isRegular = true) (hu : u.isRegular = true)
    (h : t.clock = u.clock) : t = u := by
  have htn := t.nanos_lt
  have hun := u.nanos_lt
  simp only [isRegular, Bool.or_eq_true, decide_eq_true_eq] at ht hu
  simp only [clock, Clock.mk.injEq] at h
  obtain ⟨hminute, hsecond, hfraction⟩ := h
  have hseconds : t.seconds = u.seconds := by omega
  have hnanos : t.nanos = u.nanos := by omega
  cases t
  cases u
  simp_all

end Timestamp

end ActiveRow
