/-!
# Fixed-width integers

Entry into the 64-bit types from unbounded numbers: checked (`signed?`), clamped to the ends of the
range (`clamp`), or cut at the largest count (`saturate`).

* `toInt_of_signed?`, `signed?_toInt`: the checked entry keeps the number;
* `toInt_clamp`: the clamped entry moves a number to the nearest end;
* `toNat_saturate`: a count beyond the range becomes the largest one.
-/

namespace ActiveRow.Word

/-- The signed 64-bit integer of this value, when it has one. -/
def signed? (n : Int) : Option Int64 :=
  if -0x8000000000000000 ≤ n ∧ n < 0x8000000000000000 then some (Int64.ofInt n) else none

/-- The signed 64-bit integer nearest to `n`. -/
def clamp (n : Int) : Int64 := Int64.ofInt (max (-0x8000000000000000) (min n 0x7FFFFFFFFFFFFFFF))

/-- The largest count. -/
def maxCount : Nat := 0xFFFFFFFFFFFFFFFF

/-- A count, cut at the largest one. -/
def saturate (n : Nat) : UInt64 := UInt64.ofNat (min n maxCount)

theorem toInt_ofInt {n : Int} (h : -0x8000000000000000 ≤ n ∧ n < 0x8000000000000000) :
    (Int64.ofInt n).toInt = n := by
  rw [Int64.toInt_ofInt, Int.bmod_def]
  simp only [Int64.size]
  omega

theorem toInt_of_signed? {n : Int} {w : Int64} (h : signed? n = some w) : w.toInt = n := by
  unfold signed? at h
  split at h
  · rename_i hn
    cases h
    exact toInt_ofInt hn
  · cases h

theorem signed?_toInt (w : Int64) : signed? w.toInt = some w := by
  have h : -0x8000000000000000 ≤ w.toInt ∧ w.toInt < 0x8000000000000000 :=
    ⟨w.le_toInt, w.toInt_lt⟩
  rw [signed?, if_pos h, Int64.ofInt_toInt]

theorem toInt_clamp (n : Int) :
    (clamp n).toInt = max (-0x8000000000000000) (min n 0x7FFFFFFFFFFFFFFF) :=
  toInt_ofInt (by omega)

theorem toNat_saturate (n : Nat) : (saturate n).toNat = min n maxCount := by
  simp only [saturate, UInt64.toNat_ofNat', maxCount]
  omega

theorem toNat_pos {n : UInt64} (h : n ≠ 0) : 0 < n.toNat :=
  Nat.pos_of_ne_zero fun h0 => h (UInt64.toNat_inj.1 h0)

end ActiveRow.Word
