import Mathlib.Data.Nat.Digits.Lemmas
import ActiveRow.Uuid

/-!
# Identifiers and their texts

The lowest hexadecimal digits of a number read back as its remainder. So an identifier is told by
its text.

* `Hex.read?_digits`, `Uuid.written_inj`.
-/

namespace ActiveRow

-- powers are those of core, also beside other instances
attribute [local instance (high)] instPowNat

namespace Hex

theorem digits_succ (width n : Nat) :
    digits (width + 1) n = digit (n / 16 ^ width % 16) :: digits width n := by
  simp [digits, List.range_succ]

theorem length_digits (width n : Nat) : (digits width n).length = width := by
  simp [digits]

/-- **Written digits read back.** -/
theorem read?_digits (width n : Nat) : read? (digits width n) = some (n % 16 ^ width) := by
  -- on the number of digits, for whatever was read before them
  have hfold : ∀ acc : Nat, (digits width n).foldl
      (fun acc c => do let n ← acc; let d ← value? c; pure (n * 16 + d)) (some acc) =
        some (acc * 16 ^ width + n % 16 ^ width) := by
    induction width with
    | zero => exact fun acc => by simp [digits, Nat.mod_one]
    | succ width ih =>
      intro acc
      have hvalue : value? (digit (n / 16 ^ width % 16)) = some (n / 16 ^ width % 16) :=
        digit_value _ (Nat.mod_lt _ (by decide))
      have hmod : n % 16 ^ (width + 1) = n % 16 ^ width + 16 ^ width * (n / 16 ^ width % 16) :=
        Nat.mod_pow_succ
      rw [digits_succ, List.foldl_cons, Option.bind_eq_bind, Option.bind_some, hvalue]
      refine (ih _).trans (congrArg some ?_)
      rw [hmod, Nat.pow_succ]
      ring
  have hread := hfold 0
  rw [Nat.zero_mul, Nat.zero_add] at hread
  exact hread

theorem digit_ne_hyphen : ∀ n < 16, digit n ≠ '-' := by decide

end Hex

namespace Uuid

/-- Without its hyphens, the text of an identifier is its digits. -/
theorem filter_written (u : Uuid) :
    u.written.toList.filter (· ≠ '-') = Hex.digits 32 u.number.toNat := by
  have hdigits : ∀ c ∈ Hex.digits 32 u.number.toNat, c ≠ '-' := by
    intro c hc
    obtain ⟨i, -, rfl⟩ := List.mem_map.1 hc
    exact Hex.digit_ne_hyphen _ (Nat.mod_lt _ (by decide))
  have hlength := Hex.length_digits 32 u.number.toNat
  unfold written
  generalize Hex.digits 32 u.number.toNat = ds at hdigits hlength ⊢
  have hgroup : ∀ start count,
      ((ds.drop start).take count).filter (· ≠ '-') = (ds.drop start).take count := by
    intro start count
    exact List.filter_eq_self.2 fun c hc => by
      simpa using hdigits c (List.mem_of_mem_drop (List.mem_of_mem_take hc))
  have hsplit : ∀ start count,
      (ds.drop start).take count ++ ds.drop (start + count) = ds.drop start := by
    intro start count
    rw [← List.drop_drop, List.take_append_drop]
  have hlast : (ds.drop 20).take 12 = ds.drop 20 :=
    List.take_of_length_le (by simp [hlength])
  simp only [String.toList_ofList, List.filter_append, List.filter_cons, hgroup, ne_eq,
    not_true_eq_false, decide_false, Bool.false_eq_true, if_false, List.append_assoc]
  rw [hlast, hsplit 16 4, hsplit 12 4, hsplit 8 4, hsplit 0 8, List.drop_zero]

/-- **Identifiers are told by their texts.** -/
theorem written_inj {u v : Uuid} (h : u.written = v.written) : u = v := by
  have hdigits : Hex.digits 32 u.number.toNat = Hex.digits 32 v.number.toNat := by
    rw [← filter_written, ← filter_written, h]
  have hread := congrArg Hex.read? hdigits
  rw [Hex.read?_digits, Hex.read?_digits, Option.some_inj,
    Nat.mod_eq_of_lt (show u.number.toNat < 16 ^ 32 from u.number.isLt),
    Nat.mod_eq_of_lt (show v.number.toNat < 16 ^ 32 from v.number.isLt)] at hread
  cases u
  cases v
  exact congrArg Uuid.mk (BitVec.eq_of_toNat_eq hread)

end Uuid

end ActiveRow
