import ActiveRow.Postgres.Encode
import ActiveRow.Proofs.Binary.Integer

/-!
# Numbers in integer columns

A parameter for an integer column is a big-endian number of the column's width. An integer is sent
as that number, or it is refused. A double that is an integer is sent as one, with one exception:
the widest column takes a double beyond its range for the nearest number that it holds. All other
doubles are sent as the eight bytes of the double, which no integer column reads as their number.

* `encodeInt_of_holds`, `encodeInt_of_not_holds`: what becomes of an integer.
* `encodeFloat_of_isInt`: a double that is an integer is encoded as the integer next to it.
* `encode_integerColumn`: which values a column keeps, and that what it holds reaches it.
-/

namespace ActiveRow

-- powers are those of core, also beside other instances
attribute [local instance (high)] instPowNat

/-- The value is this integer as a number. -/
def Value.IsInt : Value → Int → Prop
  | .int m, n => m.toInt = n
  | .float x, n => x.IsInt n
  | _, _ => False

namespace Postgres

/-- The types whose columns hold integers. -/
inductive IntegerColumn where
  | int2
  | int4
  | int8
  | oid
  deriving DecidableEq

namespace IntegerColumn

def scalar : IntegerColumn → Scalar
  | int2 => .int2
  | int4 => .int4
  | int8 => .int8
  | oid => .oid

/-- The bytes of a number. -/
def width : IntegerColumn → Nat
  | int2 => 2
  | int4 => 4
  | int8 => 8
  | oid => 4

/-- The numbers that a column holds. -/
def Holds : IntegerColumn → Int → Prop
  | int2, n => -0x8000 ≤ n ∧ n < 0x8000
  | int4, n => -0x80000000 ≤ n ∧ n < 0x80000000
  | int8, n => -0x8000000000000000 ≤ n ∧ n < 0x8000000000000000
  | oid, n => 0 ≤ n ∧ n < 0x100000000

/-- The number that a column takes bytes for. Object numbers have no sign. -/
def read : IntegerColumn → Bytes → Int
  | oid, bs => BigEndian.toNat bs
  | _, bs => BigEndian.toInt bs

/-- The bytes are this number in the form of the column. -/
def Reads (k : IntegerColumn) (n : Int) (bs : Bytes) : Prop := bs.length = k.width ∧ k.read bs = n

/-- The values that are numbers for a column: integers, and doubles unless it holds object
numbers. -/
def Takes (k : IntegerColumn) : Value → Prop
  | .int _ => True
  | .float _ => k ≠ oid
  | _ => False

/-- A parameter says nothing else than the value: it is the number that the value is, or there is no
parameter. -/
def Keeps (k : IntegerColumn) (v : Value) : Encoded → Prop
  | .ok (some bs) => ∃ n, v.IsInt n ∧ k.Reads n bs
  | .ok none => False
  | .error _ => True

/-- The values that are sent as another number: a double that is no integer, and one that is an
integer beyond the range of the widest column. -/
def Strays (k : IntegerColumn) : Value → Prop
  | .float x => (¬∃ n, x.IsInt n) ∨ k = int8 ∧ ∃ n, x.IsInt n ∧ ¬k.Holds n
  | _ => False

theorem keeps_sent {k : IntegerColumn} {v : Value} {bs : Bytes} :
    k.Keeps v (sent bs) ↔ ∃ n, v.IsInt n ∧ k.Reads n bs := Iff.rfl

end IntegerColumn

open IntegerColumn

/-! ### Integers -/

theorem encodeWord_of_fits (width : Nat) {n : Int} (h : -(256 ^ width) ≤ 2 * n)
    (h' : 2 * n < 256 ^ width) :
    encodeWord width n = sent (BigEndian.signed width n) ∧
      BigEndian.toInt (BigEndian.signed width n) = n :=
  ⟨if_pos ⟨h, h'⟩, BigEndian.toInt_signed h h'⟩

/-- **An integer that the column holds** is sent as it is. -/
theorem encodeInt_of_holds {k : IntegerColumn} {m : Int64} (h : k.Holds m.toInt) :
    ∃ bs, encodeInt m k.scalar = sent bs ∧ k.Reads m.toInt bs := by
  cases k with
  | int2 =>
    obtain ⟨hl, hu⟩ := h
    obtain ⟨he, hr⟩ := encodeWord_of_fits 2 (n := m.toInt) (by omega) (by omega)
    exact ⟨_, he, BigEndian.length_signed 2 _, hr⟩
  | int4 =>
    obtain ⟨hl, hu⟩ := h
    obtain ⟨he, hr⟩ := encodeWord_of_fits 4 (n := m.toInt) (by omega) (by omega)
    exact ⟨_, he, BigEndian.length_signed 4 _, hr⟩
  | int8 =>
    obtain ⟨hl, hu⟩ := h
    have hr : BigEndian.toInt (BigEndian.signed 8 m.toInt) = m.toInt :=
      BigEndian.toInt_signed (by omega) (by omega)
    exact ⟨_, rfl, BigEndian.length_signed 8 _, hr⟩
  | oid =>
    obtain ⟨hl, hu⟩ := h
    have hr : BigEndian.toNat (BigEndian.unsigned 4 m.toInt.toNat) = m.toInt.toNat :=
      BigEndian.toNat_unsigned (by omega)
    refine ⟨_, if_pos ⟨hl, hu⟩, BigEndian.length_unsigned 4 _, ?_⟩
    rw [IntegerColumn.read, hr, Int.toNat_of_nonneg hl]

/-- Every other integer is refused. -/
theorem encodeInt_of_not_holds {k : IntegerColumn} {m : Int64} (h : ¬k.Holds m.toInt) :
    encodeInt m k.scalar = .error .outOfRange := by
  cases k with
  | int2 => exact if_neg fun hn => h ⟨by omega, by omega⟩
  | int4 => exact if_neg fun hn => h ⟨by omega, by omega⟩
  | int8 => exact absurd ⟨m.le_toInt, m.toInt_lt⟩ h
  | oid => exact if_neg h

theorem keeps_encodeInt (k : IntegerColumn) (m : Int64) :
    k.Keeps (.int m) (encodeInt m k.scalar) := by
  by_cases h : k.Holds m.toInt
  · obtain ⟨bs, he, hr⟩ := encodeInt_of_holds h
    rw [he]
    exact ⟨m.toInt, rfl, hr⟩
  · rw [encodeInt_of_not_holds h]
    trivial

/-! ### Doubles -/

/-- A double that is an integer strays only beyond the widest column. -/
theorem strays_float_iff (k : IntegerColumn) {x : Double} {n : Int} (h : x.IsInt n) :
    k.Strays (.float x) ↔ k = .int8 ∧ ¬k.Holds n := by
  constructor
  · rintro (hnone | ⟨hk8, m, hm, hbeyond⟩)
    · exact absurd ⟨n, h⟩ hnone
    · exact ⟨hk8, hm.unique h ▸ hbeyond⟩
  · exact fun ⟨hk8, hbeyond⟩ => .inr ⟨hk8, n, h, hbeyond⟩

section

variable {k : IntegerColumn} (hk : k ≠ .oid) {x : Double} {n : Int}

include hk

/-- A double that is an integer is encoded as the word nearest to it. -/
theorem encodeFloat_of_isInt (h : x.IsInt n) :
    encodeFloat x k.scalar = encodeInt (Word.clamp n) k.scalar := by
  have hw : x.isWhole = true := x.isWhole_iff.2 ⟨n, h⟩
  rw [← Double.toInt64_of_isInt h]
  cases k with
  | oid => exact absurd rfl hk
  | _ => exact if_pos hw

/-- Every other double is sent as it is. -/
theorem encodeFloat_of_not_isInt (h : ¬∃ n, x.IsInt n) :
    encodeFloat x k.scalar = sent (BigEndian.unsigned 8 x.bits.toNat) := by
  have hw : ¬x.isWhole = true := fun hw => h (x.isWhole_iff.1 hw)
  cases k with
  | oid => exact absurd rfl hk
  | _ => exact if_neg hw

/-- Clamping to the widest column moves no number that a column holds. -/
theorem toInt_clamp_of_holds (h : k.Holds n) : (Word.clamp n).toInt = n := by
  have hn := Word.toInt_clamp n
  cases k with
  | oid => exact absurd rfl hk
  | int2 | int4 | int8 => simp only [Holds] at h; omega

/-- Clamping moves no number into a narrower column. -/
theorem holds_of_holds_clamp (hk8 : k ≠ .int8) (h : k.Holds (Word.clamp n).toInt) : k.Holds n := by
  have hn := Word.toInt_clamp n
  cases k with
  | oid => exact absurd rfl hk
  | int8 => exact absurd rfl hk8
  | int2 | int4 => simp only [Holds] at h ⊢; omega

theorem encodeFloat_of_holds (h : x.IsInt n) (hn : k.Holds n) :
    ∃ bs, encodeFloat x k.scalar = sent bs ∧ k.Reads n bs := by
  have hc := toInt_clamp_of_holds hk hn
  obtain ⟨bs, he, hr⟩ := encodeInt_of_holds (m := Word.clamp n) (hc.symm ▸ hn)
  exact ⟨bs, (encodeFloat_of_isInt hk h).trans he, hc ▸ hr⟩

/-- **A double that is an integer** is kept unless it is beyond the widest column: there the nearest
end of the range is sent. -/
theorem keeps_encodeFloat_iff (h : x.IsInt n) :
    k.Keeps (.float x) (encodeFloat x k.scalar) ↔ (k = .int8 → k.Holds n) := by
  by_cases hn : k.Holds n
  · obtain ⟨bs, he, hr⟩ := encodeFloat_of_holds hk h hn
    rw [he]
    exact ⟨fun _ _ => hn, fun _ => ⟨n, h, hr⟩⟩
  · by_cases hk8 : k = .int8
    · subst hk8
      have hc : IntegerColumn.int8.Holds (Word.clamp n).toInt :=
        ⟨Int64.le_toInt _, Int64.toInt_lt _⟩
      obtain ⟨bs, he, hr⟩ := encodeInt_of_holds hc
      rw [encodeFloat_of_isInt hk h, he]
      refine ⟨fun ⟨n', hn', hr'⟩ _ => ?_, fun hholds => absurd (hholds rfl) hn⟩
      -- the bytes read as one number, which is held, so it cannot be the double
      have hnum : n = (Word.clamp n).toInt := (h.unique hn').trans (hr'.2.symm.trans hr.2)
      exact hnum ▸ hc
    · rw [encodeFloat_of_isInt hk h,
        encodeInt_of_not_holds fun hc => hn (holds_of_holds_clamp hk hk8 hc)]
      exact ⟨fun _ h8 => absurd h8 hk8, fun _ => trivial⟩

end

/-- **What an integer column keeps.** A number that the column holds reaches it as that number. What
is sent for a value is the number that the value is, or the value is refused, except for the values
that stray: these are sent as something else. -/
theorem encode_integerColumn {k : IntegerColumn} {v : Value} (hv : k.Takes v) :
    (∀ n, v.IsInt n → k.Holds n → ∃ bs, encode (.scalar k.scalar) v = sent bs ∧ k.Reads n bs) ∧
      (k.Keeps v (encode (.scalar k.scalar) v) ↔ ¬k.Strays v) := by
  cases v with
  | int m =>
    refine ⟨fun n hm hn => ?_, fun _ => id, fun _ => keeps_encodeInt k m⟩
    subst hm
    exact encodeInt_of_holds hn
  | float x =>
    refine ⟨fun n hx hn => encodeFloat_of_holds hv hx hn, ?_⟩
    show k.Keeps (.float x) (encodeFloat x k.scalar) ↔ _
    by_cases hi : ∃ n, x.IsInt n
    · obtain ⟨n, hn⟩ := hi
      rw [keeps_encodeFloat_iff hv hn, strays_float_iff k hn]
      exact ⟨fun hheld ⟨hk8, hbeyond⟩ => hbeyond (hheld hk8),
        fun hstays hk8 => Classical.byContradiction fun hbeyond => hstays ⟨hk8, hbeyond⟩⟩
    · rw [encodeFloat_of_not_isInt hv hi, keeps_sent]
      exact ⟨fun ⟨n, hn, _⟩ => absurd ⟨n, hn⟩ hi, fun hstays => absurd (.inl hi) hstays⟩
  | _ => exact hv.elim

/-- The double -2 in the narrowest column. -/
theorem encode_integerColumn_minusTwo :
    let k : IntegerColumn := .int2
    let x : Double := ⟨0xC000000000000000⟩
    k.Takes (.float x) ∧ x.IsInt (-2) ∧ ¬k.Strays (.float x) ∧
      k.Keeps (.float x) (encode (.scalar k.scalar) (.float x)) ∧
        ∃ bs, encode (.scalar k.scalar) (.float x) = sent bs ∧ k.Reads (-2) bs := by
  intro k x
  have hv : k.Takes (.float x) := IntegerColumn.noConfusion
  have hn : x.IsInt (-2) := ⟨by decide, by decide +kernel⟩
  have hheld : k.Holds (-2) := ⟨by decide, by decide⟩
  have hstays : ¬k.Strays (.float x) := fun h => ((strays_float_iff k hn).1 h).2 hheld
  exact ⟨hv, hn, hstays, (encode_integerColumn hv).2.2 hstays,
    (encode_integerColumn hv).1 (-2) hn hheld⟩

/-- The double 2 ^ 63 is one beyond the widest column, and is sent as the largest number there. -/
theorem widest_column_moves_number :
    let k : IntegerColumn := .int8
    let x : Double := ⟨0x43E0000000000000⟩
    let bs : Bytes := [0x7F, 0xFF, 0xFF, 0xFF, 0xFF, 0xFF, 0xFF, 0xFF]
    k.Takes (.float x) ∧ x.IsInt 0x8000000000000000 ∧
      encode (.scalar k.scalar) (.float x) = sent bs ∧ k.Reads 0x7FFFFFFFFFFFFFFF bs ∧
        ¬k.Keeps (.float x) (encode (.scalar k.scalar) (.float x)) := by
  intro k x bs
  have hk : k ≠ .oid := IntegerColumn.noConfusion
  have hn : x.IsInt 0x8000000000000000 := ⟨by decide, by decide +kernel⟩
  have hr : k.Reads 0x7FFFFFFFFFFFFFFF bs := ⟨rfl, by decide⟩
  have hbs : BigEndian.signed 8 (Word.clamp 0x8000000000000000).toInt = bs := by decide
  have he : encode (.scalar k.scalar) (.float x) = sent bs :=
    (encodeFloat_of_isInt hk hn).trans (congrArg sent hbs)
  have hmoved : ¬k.Keeps (.float x) (encode (.scalar k.scalar) (.float x)) := fun h =>
    absurd ((keeps_encodeFloat_iff hk hn).1 h rfl).2 (by decide)
  exact ⟨hk, hn, he, hr, hmoved⟩

end Postgres

end ActiveRow
