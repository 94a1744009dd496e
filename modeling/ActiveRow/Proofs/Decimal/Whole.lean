import ActiveRow.Decimal.Written

/-!
# Integers and their texts

* `whole_inj`: an integer is told by its text.
-/

namespace ActiveRow.Decimal

theorem repr_inj {m n : Nat} (h : Nat.repr m = Nat.repr n) : m = n := by
  have hdigits := congrArg String.toList h
  rw [Nat.toList_repr, Nat.toList_repr] at hdigits
  rw [← Nat.ofDigitChars_ten_toDigits (n := m), hdigits, Nat.ofDigitChars_ten_toDigits]

theorem isDigit_of_mem_repr {n : Nat} {c : Char} (h : c ∈ (Nat.repr n).toList) :
    c.isDigit = true := by
  rw [Nat.toList_repr] at h
  exact Nat.isDigit_of_mem_toDigits (by decide) (by decide) h

/-- The sign of a text of digits is none of them. -/
theorem repr_ne_minus (m n : Nat) : Nat.repr m ≠ "-" ++ Nat.repr n := by
  intro h
  have hminus : '-' ∈ (Nat.repr m).toList := by
    rw [h, String.toList_append]
    exact List.mem_append_left _ (by decide)
  exact absurd (isDigit_of_mem_repr hminus) (by decide)

/-- **Integers are told by their texts.** -/
theorem whole_inj {m n : Int} (h : whole m = whole n) : m = n := by
  unfold whole at h
  by_cases hm : m < 0 <;> by_cases hn : n < 0 <;> simp only [hm, hn, if_true, if_false] at h
  · have habs := repr_inj (String.append_right_inj _ |>.1 h)
    omega
  · exact absurd h.symm (repr_ne_minus _ _)
  · exact absurd h (repr_ne_minus _ _)
  · have habs := repr_inj h
    omega

end ActiveRow.Decimal
