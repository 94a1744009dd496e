import Mathlib.Data.List.Basic
import ActiveRow.Sorting

/-!
# What sorting gives

A comparison orders the items of a list when exchanging two of them turns it round and when it is
passed on among them. Sorting by it then gives the one list that has the same items, none of which
compares greater than a later one, and in which items that compare equal keep their order.

* `place_level`, `foldl_place_sorts`: what placing one item keeps, and so what placing many keeps.
* `sorts_sort`: what sorting gives.
* `Sorts.unique`: that nothing else does.
* `sorts_reverse`: sorting in the other direction.
-/

namespace ActiveRow.Sorting

variable {α : Type} {cmp : α → α → Ordering}

/-- Exchanging two items turns their comparison round, and among the items of a list comparisons are
passed on. -/
structure Orders (cmp : α → α → Ordering) (l : List α) : Prop where
  swap : ∀ a b, cmp b a = (cmp a b).swap
  trans : ∀ a ∈ l, ∀ b ∈ l, ∀ c ∈ l, cmp a b ≠ .gt → cmp b c ≠ .gt → cmp a c ≠ .gt

/-- **A list sorted by a comparison**: it has the same items, none compares greater than a later
one, and of any item the ones that compare equal with it are in the order in which they were. -/
structure Sorts (cmp : α → α → Ordering) (l sorted : List α) : Prop where
  perm : sorted.Perm l
  ascending : sorted.Pairwise fun a b => cmp a b ≠ .gt
  level : ∀ a ∈ l, sorted.filter (fun b => cmp a b = .eq) = l.filter (fun b => cmp a b = .eq)

/-! ### Comparisons -/

namespace Orders

variable {l l' : List α}

theorem mono (h : Orders cmp l) (hsub : l' ⊆ l) : Orders cmp l' :=
  ⟨h.swap, fun a ha b hb c hc => h.trans a (hsub ha) b (hsub hb) c (hsub hc)⟩

/-- The other direction. -/
theorem flip (h : Orders cmp l) : Orders (fun a b => cmp b a) l :=
  ⟨fun a b => h.swap b a, fun a ha b hb c hc hab hbc => h.trans c hc b hb a ha hbc hab⟩

theorem ne_gt_iff (h : Orders cmp l) (a b : α) : cmp a b ≠ .gt ↔ cmp b a ≠ .lt := by
  rw [h.swap a b]
  cases cmp a b <;> decide

theorem eq_iff (h : Orders cmp l) (a b : α) : cmp a b = .eq ↔ cmp a b ≠ .gt ∧ cmp b a ≠ .gt := by
  rw [h.swap a b]
  cases cmp a b <;> decide

theorem self (h : Orders cmp l) (a : α) : cmp a a = .eq := by
  have hswap := h.swap a a
  cases hc : cmp a a with
  | eq => rfl
  | lt => simp [hc] at hswap
  | gt => simp [hc] at hswap

/-- Two items that are level with a third are level. -/
theorem level (h : Orders cmp l) {a b c : α} (ha : a ∈ l) (hb : b ∈ l) (hc : c ∈ l)
    (hab : cmp a b = .eq) (hac : cmp a c = .eq) : cmp b c = .eq := by
  obtain ⟨hab, hba⟩ := (h.eq_iff a b).1 hab
  obtain ⟨hac, hca⟩ := (h.eq_iff a c).1 hac
  exact (h.eq_iff b c).2 ⟨h.trans b hb a ha c hc hba hac, h.trans c hc a ha b hb hca hab⟩

end Orders

/-! ### Placing items -/

/-- A list sorted from its last item to its first. -/
def Descending (cmp : α → α → Ordering) (l : List α) : Prop :=
  l.Pairwise fun a b => cmp b a ≠ .gt

variable {items : List α}

/-- An item is placed behind those that it precedes, and what is behind them does not follow it. -/
theorem descending_place (h : Orders cmp items) {x : α} (hx : x ∈ items) {l : List α}
    (hl : l ⊆ items) (hsorted : Descending cmp l) : Descending cmp (place cmp x l) := by
  induction l with
  | nil => exact List.pairwise_singleton _ _
  | cons y ys ih =>
    obtain ⟨hy, hys⟩ := List.pairwise_cons.1 hsorted
    obtain ⟨hyItem, hysItems⟩ := List.cons_subset.1 hl
    unfold place
    split
    · rename_i hlt
      refine List.pairwise_cons.2 ⟨fun z hz => ?_, ih hysItems hys⟩
      rcases List.mem_cons.1 ((place_perm cmp x ys).mem_iff.1 hz) with rfl | hz
      · rw [hlt]
        exact Ordering.noConfusion
      · exact hy z hz
    · rename_i hge
      have hyx : cmp y x ≠ .gt := (h.ne_gt_iff y x).2 hge
      refine List.pairwise_cons.2 ⟨fun z hz => ?_, hsorted⟩
      rcases List.mem_cons.1 hz with rfl | hz
      · exact hyx
      · exact h.trans z (hysItems hz) y hyItem x hx (hy z hz) hyx

/-- **Placing an item** puts it before all that are level with it. -/
theorem place_level (h : Orders cmp items) {a x : α} (ha : a ∈ items) (hx : x ∈ items)
    {l : List α} (hl : l ⊆ items) : (place cmp x l).filter (fun b => cmp a b = .eq) =
      (x :: l).filter fun b => cmp a b = .eq := by
  induction l with
  | nil => rfl
  | cons y ys ih =>
    obtain ⟨hy, hys⟩ := List.cons_subset.1 hl
    unfold place
    split
    · rename_i hlt
      rw [List.filter_cons, ih hys]
      by_cases hax : cmp a x = .eq
      · -- what precedes another item is not level with it
        have hay : ¬cmp a y = .eq := fun hay => by
          rw [h.level ha hx hy hax hay] at hlt
          cases hlt
        simp [hax, hay]
      · simp [List.filter_cons, hax]
    · rfl

/-- What is placed item by item is sorted, and level items are in the order of their placing. -/
theorem foldl_place_sorts (h : Orders cmp items) (l : List α) : ∀ sorted : List α, l ⊆ items →
    sorted ⊆ items → Descending cmp sorted →
      Descending cmp (l.foldl (fun sorted x => place cmp x sorted) sorted) ∧
        ∀ a ∈ items, (l.foldl (fun sorted x => place cmp x sorted) sorted).filter
            (fun b => cmp a b = .eq) = (l.reverse ++ sorted).filter fun b => cmp a b = .eq := by
  induction l with
  | nil => exact fun sorted _ _ hsorted => ⟨hsorted, fun _ _ => rfl⟩
  | cons x l ih =>
    intro sorted hl hitems hsorted
    obtain ⟨hx, hl⟩ := List.cons_subset.1 hl
    have hplaced : place cmp x sorted ⊆ items := fun y hy =>
      (List.mem_cons.1 ((place_perm cmp x sorted).mem_iff.1 hy)).elim (fun e => e ▸ hx)
        (fun hy => hitems hy)
    obtain ⟨hdescending, hlevel⟩ :=
      ih (place cmp x sorted) hl hplaced (descending_place h hx hitems hsorted)
    refine ⟨hdescending, fun a ha => (hlevel a ha).trans ?_⟩
    rw [List.filter_append, place_level h ha hx hitems, ← List.filter_append, List.reverse_cons,
      List.append_assoc]
    rfl

/-! ### Sorting -/

variable {l : List α}

/-- **What sorting gives.** -/
theorem sorts_sort (h : Orders cmp l) : Sorts cmp l (sort cmp l) := by
  obtain ⟨hdescending, hlevel⟩ :=
    foldl_place_sorts h l [] (List.Subset.refl l) (List.nil_subset l) .nil
  refine ⟨sort_perm cmp l, List.pairwise_reverse.2 hdescending, fun a ha => ?_⟩
  rw [sort, List.filter_reverse, hlevel a ha, List.append_nil, List.filter_reverse,
    List.reverse_reverse]

/-- **Nothing else is sorted.** The first items are level, so they are both the first of the items
that are level with them. -/
theorem eq_of_ascending (h : Orders cmp items) : ∀ {s t : List α}, s ⊆ items → t ⊆ items →
    (s.Pairwise fun a b => cmp a b ≠ .gt) → (t.Pairwise fun a b => cmp a b ≠ .gt) →
    (∀ a ∈ items, s.filter (fun b => cmp a b = .eq) = t.filter fun b => cmp a b = .eq) →
    s = t := by
  have hmem : ∀ {s t : List α}, s ⊆ items →
      (∀ a ∈ items, s.filter (fun b => cmp a b = .eq) = t.filter fun b => cmp a b = .eq) →
      s ⊆ t := by
    intro s t hs hlevel a ha
    have ha' : a ∈ s.filter fun b => cmp a b = .eq :=
      List.mem_filter.2 ⟨ha, decide_eq_true (h.self a)⟩
    rw [hlevel a (hs ha)] at ha'
    exact (List.mem_filter.1 ha').1
  -- nothing in an ascending list is greater than what follows it
  have hfirst : ∀ {x : α} {s : List α}, ((x :: s).Pairwise fun a b => cmp a b ≠ .gt) →
      ∀ y ∈ x :: s, cmp x y ≠ .gt := by
    intro x s hs y hy
    rcases List.mem_cons.1 hy with rfl | hy
    · rw [h.self]
      exact Ordering.noConfusion
    · exact (List.pairwise_cons.1 hs).1 y hy
  intro s
  induction s with
  | nil =>
    intro t _ ht _ _ hlevel
    exact (List.subset_nil.1 (hmem ht fun a ha => (hlevel a ha).symm)).symm
  | cons x s ih =>
    intro t hs ht hxs hyt hlevel
    cases t with
    | nil => exact absurd (hmem hs hlevel List.mem_cons_self) List.not_mem_nil
    | cons y t =>
      have hxy : cmp x y = .eq := (h.eq_iff x y).2
        ⟨hfirst hxs y (hmem ht (fun a ha => (hlevel a ha).symm) List.mem_cons_self),
          hfirst hyt x (hmem hs hlevel List.mem_cons_self)⟩
      obtain ⟨hx, hs⟩ := List.cons_subset.1 hs
      have hheads := hlevel x hx
      rw [List.filter_cons, List.filter_cons, if_pos (decide_eq_true (h.self x)),
        if_pos (decide_eq_true hxy)] at hheads
      obtain rfl := (List.cons.inj hheads).1
      refine congrArg (x :: ·) (ih hs (List.cons_subset.1 ht).2 hxs.of_cons hyt.of_cons
        fun a ha => ?_)
      have hrest := hlevel a ha
      rw [List.filter_cons, List.filter_cons] at hrest
      split at hrest
      · exact (List.cons.inj hrest).2
      · exact hrest

theorem Sorts.unique (h : Orders cmp l) {s t : List α} (hs : Sorts cmp l s) (ht : Sorts cmp l t) :
    s = t :=
  eq_of_ascending h hs.perm.subset ht.perm.subset hs.ascending ht.ascending
    fun a ha => (hs.level a ha).trans (ht.level a ha).symm

/-- **The other direction** is that of the reversed items, reversed. -/
theorem sorts_reverse (h : Orders cmp l) :
    Sorts (fun a b => cmp b a) l (sort cmp l.reverse).reverse := by
  have hsorts := sorts_sort (h.mono (List.reverse_subset.2 (List.Subset.refl l)))
  refine ⟨(List.reverse_perm _).trans (hsorts.perm.trans (List.reverse_perm l)),
    List.pairwise_reverse.2 hsorts.ascending, fun a ha => ?_⟩
  have hturned : ∀ b, decide (cmp b a = .eq) = decide (cmp a b = .eq) := by
    intro b
    rw [h.swap a b]
    cases cmp a b <;> rfl
  simp only [hturned]
  rw [List.filter_reverse, hsorts.level a (List.mem_reverse.2 ha), List.filter_reverse,
    List.reverse_reverse]

/-- A list in which nothing is greater than what follows it is sorted already. -/
theorem sort_of_ascending (hswap : ∀ a b, cmp b a = (cmp a b).swap)
    (hl : l.Pairwise fun a b => cmp a b ≠ .gt) : sort cmp l = l := by
  refine sort_eq_self ?_
  induction l with
  | nil => trivial
  | cons x l ih =>
    obtain ⟨hx, hrest⟩ := List.pairwise_cons.1 hl
    cases l with
    | nil => trivial
    | cons y l =>
      refine ⟨fun hlt => hx y List.mem_cons_self ?_, ih hrest⟩
      rw [hswap y x, hlt]
      rfl

/-- Only the comparisons of the items with each other count. -/
theorem sort_congr {cmp' : α → α → Ordering} (h : ∀ a ∈ l, ∀ b ∈ l, cmp' a b = cmp a b) :
    sort cmp' l = sort cmp l := by
  have hplace : ∀ x ∈ l, ∀ ys : List α, ys ⊆ l → place cmp' x ys = place cmp x ys := by
    intro x hx ys hys
    induction ys with
    | nil => rfl
    | cons y ys ih =>
      obtain ⟨hy, hys⟩ := List.cons_subset.1 hys
      rw [place, place, h x hx y hy, ih hys]
  have hfold : ∀ rest sorted : List α, rest ⊆ l → sorted ⊆ l →
      rest.foldl (fun sorted x => place cmp' x sorted) sorted =
        rest.foldl (fun sorted x => place cmp x sorted) sorted := by
    intro rest
    induction rest with
    | nil => exact fun _ _ _ => rfl
    | cons x rest ih =>
      intro sorted hrest hsorted
      obtain ⟨hx, hrest⟩ := List.cons_subset.1 hrest
      rw [List.foldl_cons, List.foldl_cons, hplace x hx sorted hsorted]
      refine ih _ hrest fun y hy => ?_
      rcases List.mem_cons.1 ((place_perm cmp x sorted).mem_iff.1 hy) with rfl | hy
      · exact hx
      · exact hsorted hy
  exact congrArg List.reverse (hfold l [] (List.Subset.refl l) (List.nil_subset l))

end ActiveRow.Sorting
