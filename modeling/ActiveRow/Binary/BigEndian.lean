/-!
# Big-endian words

Numbers as a fixed count of bytes, the most significant first; signed ones in two's complement.

* `toNat_unsigned`: a number that fits reads back;
* `toInt_signed`: so does a signed one.
-/

namespace ActiveRow.BigEndian

-- powers are those of core, also beside other instances
attribute [local instance (high)] instPowNat

/-- The lowest `width` bytes of a number. -/
def unsigned : Nat → Nat → List UInt8
  | 0, _ => []
  | width + 1, n => UInt8.ofNat (n / 256 ^ width % 256) :: unsigned width n

/-- The number of a list of bytes. -/
def toNat (bs : List UInt8) : Nat := bs.foldl (fun acc b => acc * 256 + b.toNat) 0

/-- A number in two's complement. -/
def signed (width : Nat) (n : Int) : List UInt8 := unsigned width (n % 256 ^ width).toNat

/-- The number that bytes are in two's complement. -/
def toInt (bs : List UInt8) : Int :=
  let n := toNat bs
  if 2 * n < 256 ^ bs.length then n else (n : Int) - 256 ^ bs.length

@[simp] theorem length_unsigned (width n : Nat) : (unsigned width n).length = width := by
  induction width with
  | zero => rfl
  | succ width ih => simp [unsigned, ih]

@[simp] theorem length_signed (width : Nat) (n : Int) : (signed width n).length = width :=
  length_unsigned _ _

theorem foldl_unsigned (width n acc : Nat) :
    (unsigned width n).foldl (fun acc b => acc * 256 + b.toNat) acc =
      acc * 256 ^ width + n % 256 ^ width := by
  induction width generalizing acc with
  | zero => simp [unsigned, Nat.mod_one]
  | succ width ih =>
    have hb : (UInt8.ofNat (n / 256 ^ width % 256)).toNat = n / 256 ^ width % 256 := by
      rw [UInt8.toNat_ofNat']
      omega
    have hm : n % 256 ^ (width + 1) =
        n / 256 ^ width % 256 * 256 ^ width + n % 256 ^ width := by
      rw [Nat.pow_succ, Nat.mod_mul, Nat.add_comm, Nat.mul_comm]
    rw [unsigned, List.foldl_cons, ih, hb, hm, Nat.pow_succ, Nat.add_mul, Nat.mul_assoc,
      Nat.mul_comm 256 (256 ^ width), Nat.add_assoc]

theorem toNat_unsigned {width n : Nat} (h : n < 256 ^ width) : toNat (unsigned width n) = n := by
  rw [toNat, foldl_unsigned, Nat.zero_mul, Nat.zero_add, Nat.mod_eq_of_lt h]

theorem toInt_signed {width : Nat} {n : Int} (hl : -(256 ^ width) ≤ 2 * n)
    (hu : 2 * n < 256 ^ width) : toInt (signed width n) = n := by
  have hp : (0 : Int) < 256 ^ width := Int.pow_pos (by decide)
  have h0 := Int.emod_nonneg n (Int.ne_of_gt hp)
  have h1 := Int.emod_lt_of_pos n hp
  have hc : ((256 ^ width : Nat) : Int) = 256 ^ width := by simp
  have ht : ((n % 256 ^ width).toNat : Int) = n % 256 ^ width := Int.toNat_of_nonneg h0
  have hn : toNat (signed width n) = (n % 256 ^ width).toNat := toNat_unsigned (by omega)
  simp only [toInt, hn, length_signed]
  have hm : n % 256 ^ width = n ∨ n % 256 ^ width = n + 256 ^ width := by
    rcases Int.lt_or_le n 0 with h | h
    · exact .inr (by rw [← Int.add_emod_right, Int.emod_eq_of_lt (by omega) (by omega)])
    · exact .inl (Int.emod_eq_of_lt h (by omega))
  split <;> omega

end ActiveRow.BigEndian
