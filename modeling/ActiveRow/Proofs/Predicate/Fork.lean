import ActiveRow.Proofs.Predicate.Pruning
import ActiveRow.Proofs.Predicate.Verdict

/-!
# A test behind a predicate

AND goes before OR, so a test that AND adds behind a predicate applies to all of it only when the
predicate is not forked: no clause that is written at its top, but for the first, is an alternative.

* `passes_append_and`: behind a predicate that is not forked, the test narrows the predicate.
* `passes_append_of_forked`: behind a forked one it does not; when all other tests hold, the row
  passes without it.
-/

namespace ActiveRow

/-- Whether OR is written at the top of a predicate. The first clause drops its connector. -/
def Clause.Forked (cs : List Clause) : Prop := .or ∈ ((prune cs).map link).tail

instance (cs : List Clause) : Decidable (Clause.Forked cs) :=
  inferInstanceAs (Decidable (_ ∈ _))

namespace Predicate

/-! ### Connectors at the top -/

section

variable {α : Type} (chain : Test → Chain α)

theorem fst_items {c : Clause} (hc : c.tests ≠ [])
    (hchain : ∀ link t, c = .test link t → (chain t).rest = []) :
    (items chain c).map Prod.fst = [c.link] := by
  cases c with
  | test link t => simp [items, Chain.items, hchain link t rfl, Clause.link]
  | group link clauses =>
    have hne : listItems chain clauses ≠ [] := fun h =>
      hc ((Clause.areVacant_iff clauses).1 ((listItems_eq_nil_iff chain clauses).1 h))
    obtain ⟨e, rest, h⟩ := List.exists_cons_of_ne_nil hne
    simp [items, h, grouped, Clause.link]

/-- Where the tests at the top are single atoms, the items are those of the clauses written. -/
theorem fst_listItems : ∀ cs : List Clause,
    (∀ link t, Clause.test link t ∈ cs → (chain t).rest = []) →
      (listItems chain cs).map Prod.fst = (Clause.prune cs).map Clause.link
  | [], _ => rfl
  | c :: cs, h => by
    have hcs := fst_listItems cs fun link t ht => h link t (List.mem_cons_of_mem c ht)
    rw [listItems, List.map_append, hcs, Clause.prune]
    by_cases hc : c.tests = []
    · have hnil := (items_eq_nil_iff chain c).2 ((Clause.isVacant_iff c).2 hc)
      rw [hnil, if_pos (by simpa using hc)]
      rfl
    · rw [fst_items chain hc fun link t ht => h link t (ht ▸ List.mem_cons_self),
        if_neg (by simpa using hc), List.map_cons, Clause.link_pruned]
      rfl

end

/-! ### Not forked -/

/-- **A test narrows a predicate that is not forked.** -/
theorem Verdict.passes_append_and (v : Verdict) {cs : List Clause} (hcs : ¬Clause.Forked cs)
    (hr : ∀ link u, Clause.test link u ∈ cs → hasRaw u = false) {t : Test}
    (ht : hasRaw t = false) : v.passes (cs ++ [.test .and t]) ↔ v.passes cs ∧ v.holds t := by
  have hlinks := fst_listItems v.chain cs fun link u hu => v.single u (hr link u hu)
  rw [passes_iff, passes_iff, v.holds_iff ht, v.listItems_append_test cs ht]
  rw [Clause.Forked, ← hlinks] at hcs
  cases hl : listItems v.chain cs with
  | nil => simp [value, Item.valueFrom, Item.value]
  | cons e rest =>
    rw [hl, List.map_cons, List.tail_cons] at hcs
    have hand : ∀ e ∈ rest, e.1 = .and := by
      intro e he
      cases hlink : e.1 with
      | and => rfl
      | or => exact absurd (hlink ▸ List.mem_map_of_mem he) hcs
    simp [value, valueFrom_append_and _ rest _ hand, Item.value]

/-! ### Forked -/

theorem valueFrom_of_true : ∀ {rest : List (Connector × Item Bool)},
    (∀ e ∈ rest, e.2.value = true) → Item.valueFrom true rest = true
  | [], _ => rfl
  | (.or, _) :: _, _ => rfl
  | (.and, i) :: rest, h => by
    rw [Item.valueFrom, h _ List.mem_cons_self]
    exact valueFrom_of_true fun e he => h e (List.mem_cons_of_mem _ he)

/-- Behind an alternative nothing matters, when all items up to there are true. -/
theorem valueFrom_append_of_or (more : List (Connector × Item Bool)) :
    ∀ {rest : List (Connector × Item Bool)}, (∀ e ∈ rest, e.2.value = true) →
      (∃ e ∈ rest, e.1 = .or) → Item.valueFrom true (rest ++ more) = true
  | [], _, h => by simp at h
  | (.or, _) :: _, _, _ => rfl
  | (.and, i) :: rest, h, hor => by
    rw [List.cons_append, Item.valueFrom, h _ List.mem_cons_self]
    refine valueFrom_append_of_or more (fun e he => h e (List.mem_cons_of_mem _ he)) ?_
    simpa using hor

/-- Whether all atoms of a chain are true. -/
def Chain.AllTrue (c : Chain Bool) : Prop := c.first = true ∧ ∀ e ∈ c.rest, e.2 = true

mutual

/-- Items of tests whose atoms are true are true. -/
theorem value_items (chain : Test → Chain Bool) : ∀ c : Clause,
    (∀ t ∈ c.tests, (chain t).AllTrue) → ∀ e ∈ items chain c, e.2.value = true
  | .test link t, h => by
    obtain ⟨hfirst, hrest⟩ := h t (by simp [Clause.tests])
    intro e he
    rw [items, Chain.items, List.mem_cons, List.mem_map] at he
    rcases he with rfl | ⟨a, ha, rfl⟩
    · exact hfirst
    · exact hrest a ha
  | .group link clauses, h => by
    have hin := value_listItems chain clauses h
    rw [items]
    cases hi : listItems chain clauses with
    | nil => simp [grouped]
    | cons e rest =>
      rw [hi] at hin
      have hrest := valueFrom_of_true fun e he => hin e (List.mem_cons_of_mem _ he)
      simp [grouped, Item.value, hin e List.mem_cons_self, hrest]

theorem value_listItems (chain : Test → Chain Bool) : ∀ cs : List Clause,
    (∀ t ∈ Clause.listTests cs, (chain t).AllTrue) → ∀ e ∈ listItems chain cs, e.2.value = true
  | [], _ => by simp [listItems]
  | c :: cs, h => by
    intro e he
    rcases List.mem_append.1 he with he | he
    · exact value_items chain c (fun t ht => h t (List.mem_append_left _ ht)) e he
    · exact value_listItems chain cs (fun t ht => h t (List.mem_append_right _ ht)) e he

end

/-- **Behind an alternative nothing matters**, when all items up to there are true. -/
theorem Verdict.passes_append_of_or (v : Verdict) {cs : List Clause}
    (htrue : ∀ e ∈ listItems v.chain cs, e.2.value = true)
    (hor : .or ∈ ((listItems v.chain cs).map Prod.fst).tail) (more : List Clause) :
    v.passes (cs ++ more) := by
  rw [passes_iff, listItems_append]
  cases h : listItems v.chain cs with
  | nil => simp [h] at hor
  | cons e rest =>
    rw [h] at hor htrue
    have hrest : ∃ e ∈ rest, e.1 = .or := by simpa using hor
    rw [List.cons_append, value, htrue e List.mem_cons_self]
    exact valueFrom_append_of_or _ (fun e he => htrue e (List.mem_cons_of_mem _ he)) hrest

open Classical in
/-- The verdict that fails one test and no other. -/
noncomputable def Verdict.allBut (t : Test) : Verdict where
  chain u := ⟨u ≠ t, []⟩
  single _ _ := rfl

theorem Verdict.holds_allBut (t u : Test) : (allBut t).holds u ↔ u ≠ t := by
  simp [holds, allBut, Chain.items, value, Item.valueFrom, Item.value]

theorem Verdict.not_holds_allBut (t : Test) : ¬(allBut t).holds t := fun h =>
  (holds_allBut t t).1 h rfl

/-- **A forked predicate lets rows pass that fail a test behind it.** -/
theorem Verdict.passes_append_of_forked {cs : List Clause} (hcs : Clause.Forked cs) {t : Test}
    (ht : t ∉ Clause.listTests cs) (link : Connector) :
    (allBut t).passes (cs ++ [.test link t]) := by
  have htrue := value_listItems (allBut t).chain cs fun u hu => by
    have hne : u ≠ t := fun h => ht (h ▸ hu)
    simp [allBut, hne, Chain.AllTrue]
  have hlinks := fst_listItems (allBut t).chain cs fun _ _ _ => rfl
  rw [Clause.Forked, ← hlinks] at hcs
  exact (allBut t).passes_append_of_or htrue hcs _

end Predicate

end ActiveRow
