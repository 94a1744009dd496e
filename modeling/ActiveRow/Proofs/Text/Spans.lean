/-!
# Texts that are cut in one way

Where the characters of a front are told from the one behind it, a text is cut in one way.

* `span_unique`, `cut_unique`.
-/

namespace ActiveRow.Text

variable {α : Type} {x y r s : List α}

/-- **A front of items of one class**, up to an item of the other, or to the end. -/
theorem span_unique {p : α → Bool} (hx : ∀ c ∈ x, p c = true) (hy : ∀ c ∈ y, p c = true)
    (hr : ∀ c ∈ r.head?, p c = false) (hs : ∀ c ∈ s.head?, p c = false) (h : x ++ r = y ++ s) :
    x = y ∧ r = s := by
  have hfront : ∀ {x r : List α}, (∀ c ∈ x, p c = true) → (∀ c ∈ r.head?, p c = false) →
      (x ++ r).takeWhile p = x := by
    intro x r hx hr
    rw [List.takeWhile_append_of_pos hx]
    cases r with
    | nil => simp
    | cons c r => simp [hr c rfl]
  have hxy : x = y := by rw [← hfront hx hr, h, hfront hy hs]
  subst hxy
  exact ⟨rfl, List.append_cancel_left h⟩

/-- **A front without an item**, up to this item. -/
theorem cut_unique [DecidableEq α] {a : α} (hx : a ∉ x) (hy : a ∉ y)
    (h : x ++ a :: r = y ++ a :: s) : x = y ∧ r = s := by
  have hother : ∀ {l : List α}, a ∉ l → ∀ c ∈ l, decide (c ≠ a) = true := fun hl c hc =>
    decide_eq_true fun hca => hl (hca ▸ hc)
  have hcut : ∀ {l : List α}, ∀ c ∈ (a :: l).head?, decide (c ≠ a) = false := by simp
  obtain ⟨hxy, hrs⟩ :=
    span_unique (p := fun c => decide (c ≠ a)) (hother hx) (hother hy) hcut hcut h
  exact ⟨hxy, (List.cons.inj hrs).2⟩

end ActiveRow.Text
