/-!
# Stable sorting

Items are put into what is sorted so far one after the other, each from the end: an item goes behind
the last one that it does not precede. So items that compare equal keep their order, and every
comparison gives an answer, transitive or not.

* `sort_perm`: nothing is lost and nothing added.
* `sort_eq_self`: a list in which no item precedes the one before it stays as it is.
-/

namespace ActiveRow.Sorting

variable {α : Type}

/-- Puts an item into a list that is sorted from its last item to its first. -/
def place (cmp : α → α → Ordering) (x : α) : List α → List α
  | [] => [x]
  | y :: ys => if cmp x y = .lt then y :: place cmp x ys else x :: y :: ys

/-- Sorts a list by a comparison. -/
def sort (cmp : α → α → Ordering) (l : List α) : List α :=
  (l.foldl (fun sorted x => place cmp x sorted) []).reverse

theorem place_perm (cmp : α → α → Ordering) (x : α) (l : List α) :
    (place cmp x l).Perm (x :: l) := by
  induction l with
  | nil => exact .refl _
  | cons y ys ih =>
    unfold place
    split
    · exact (ih.cons y).trans (.swap x y ys)
    · exact .refl _

theorem foldl_place_perm (cmp : α → α → Ordering) (l sorted : List α) :
    (l.foldl (fun sorted x => place cmp x sorted) sorted).Perm (l ++ sorted) := by
  induction l generalizing sorted with
  | nil => exact .refl _
  | cons x l ih =>
    exact (ih _).trans (((place_perm cmp x sorted).append_left l).trans List.perm_middle)

theorem sort_perm (cmp : α → α → Ordering) (l : List α) : (sort cmp l).Perm l := by
  have h := foldl_place_perm cmp l []
  rw [List.append_nil] at h
  exact (List.reverse_perm _).trans h

/-- Whether no item precedes the one before it. -/
def Ascending (cmp : α → α → Ordering) : List α → Prop
  | x :: y :: rest => cmp y x ≠ .lt ∧ Ascending cmp (y :: rest)
  | _ => True

theorem foldl_place_eq (cmp : α → α → Ordering) (l done : List α) (x : α)
    (h : Ascending cmp (x :: l)) :
    l.foldl (fun sorted y => place cmp y sorted) (x :: done) = l.reverse ++ x :: done := by
  induction l generalizing x done with
  | nil => rfl
  | cons y l ih =>
    rw [List.foldl_cons, place, if_neg h.1, ih (x :: done) y h.2]
    simp

theorem sort_eq_self {cmp : α → α → Ordering} {l : List α} (h : Ascending cmp l) :
    sort cmp l = l := by
  cases l with
  | nil => rfl
  | cons x l =>
    unfold sort
    rw [List.foldl_cons, place, foldl_place_eq cmp l [] x h]
    simp

end ActiveRow.Sorting
