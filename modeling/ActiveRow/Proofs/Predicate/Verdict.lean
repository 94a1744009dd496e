import ActiveRow.Proofs.Predicate.Reading
import ActiveRow.Selection

/-!
# Verdicts on rows

A verdict says of every test what it makes of one row: a chain of atoms that are true or not. Only
raw text may be a chain of more than one atom. Whether a row passes a written predicate follows
from how it is read, AND before OR.

* `value_append_and`: a test behind a last AND applies to everything before it, when there is no OR
  at the level where it stands.
* `passes_isolate`: so a test added to an isolated predicate narrows that predicate.
-/

namespace ActiveRow.Predicate

/-! ### Value of items -/

mutual

/-- Whether an item is true, its atoms being true or not. -/
def Item.value : Item Bool → Bool
  | atom b => b
  | group first rest => Item.valueFrom first.value rest

/-- Whether items are true behind a conjunction that is true or not: AND goes before OR. -/
def Item.valueFrom : Bool → List (Connector × Item Bool) → Bool
  | v, [] => v
  | v, (.and, i) :: rest => Item.valueFrom (v && i.value) rest
  | v, (.or, i) :: rest => v || Item.valueFrom i.value rest

end

/-- Whether items are true, the connector of the first aside. No items are true. -/
def value : List (Connector × Item Bool) → Bool
  | [] => true
  | (_, i) :: rest => Item.valueFrom i.value rest

theorem valueFrom_append_and (x : Item Bool) : ∀ (rest : List (Connector × Item Bool)) (v : Bool),
    (∀ e ∈ rest, e.1 = .and) →
      Item.valueFrom v (rest ++ [(.and, x)]) = (Item.valueFrom v rest && x.value)
  | [], v, _ => by simp [Item.valueFrom]
  | (c, i) :: rest, v, h => by
    obtain rfl : c = .and := h _ List.mem_cons_self
    rw [List.cons_append, Item.valueFrom, Item.valueFrom]
    exact valueFrom_append_and x rest _ fun e he => h e (List.mem_cons_of_mem _ he)

/-- A last AND applies to all items, when these have no OR among them. -/
theorem value_append_and (x : Item Bool) {l : List (Connector × Item Bool)}
    (h : ∀ e ∈ l, e.1 = .and) : value (l ++ [(.and, x)]) = (value l && x.value) := by
  cases l with
  | nil => simp [value, Item.valueFrom]
  | cons e rest => exact valueFrom_append_and x rest _ fun e he => h e (List.mem_cons_of_mem _ he)

/-- A group is true when its items are. -/
theorem value_grouped (link : Connector) (l : List (Connector × Item Bool)) :
    value (grouped link l) = value l := by
  cases l with
  | nil => rfl
  | cons e rest => rfl

/-! ### Verdicts -/

/-- Whether a test compares with raw text. -/
def comparesRaw : Test → Bool
  | .compare _ _ (.raw _) => true
  | _ => false

/-- Whether a test holds raw text anywhere. -/
def hasRaw : Test → Bool
  | .raw _ | .compare _ _ (.raw _) => true
  | _ => false

theorem hasRaw_eq_false {t : Test} (hc : comparesRaw t = false) (hr : ∀ r, t ≠ .raw r) :
    hasRaw t = false := by
  cases t with
  | raw r => exact absurd rfl (hr r)
  | compare column operator o =>
    cases o with
    | value x => rfl
    | raw r => cases hc
  | _ => rfl

theorem comparesRaw_eq_false {t : Test} (h : hasRaw t = false) : comparesRaw t = false := by
  cases t with
  | compare column operator o =>
    cases o with
    | value x => rfl
    | raw r => cases h
  | _ => rfl

/-- What tests make of one row. A test without raw text is one atom. -/
structure Verdict where
  chain : Test → Chain Bool
  single : ∀ t, hasRaw t = false → (chain t).rest = []

namespace Verdict

variable (v : Verdict)

/-- Whether the row passes a test that stands alone. -/
def holds (t : Test) : Prop := value ((v.chain t).items .and) = true

/-- Whether the row passes clauses as they are written: there is nothing to write, or what is
written is read as something true. -/
def passes (cs : List Clause) : Prop :=
  Clause.areVacant cs = true ∨
    ∃ i, read ((Clause.listTokens true cs).flatMap (words v.chain)) = some i ∧ i.value = true

theorem passes_iff (cs : List Clause) : v.passes cs ↔ value (listItems v.chain cs) = true := by
  rw [passes, read_listTokens, ← listItems_eq_nil_iff v.chain cs]
  cases listItems v.chain cs with
  | nil => simp [value]
  | cons e rest => simp [value, Item.value]

instance (cs : List Clause) : Decidable (v.passes cs) :=
  decidable_of_iff _ (v.passes_iff cs).symm

/-- The items of a clause that is not loose are joined by AND, as those of its test are. -/
theorem link_items {c : Clause} (hc : c.isLoose = false)
    (hchain : ∀ link t, c = .test link t → ∀ e ∈ (v.chain t).rest, e.1 = .and) :
    ∀ e ∈ items v.chain c, e.1 = .and := by
  cases c with
  | test link t =>
    simp only [Clause.isLoose, Bool.or_eq_false_iff, decide_eq_false_iff_not] at hc
    have hl : link = .and := by cases link with | and => rfl | or => exact absurd rfl hc.1
    intro e he
    rw [items, Chain.items, List.mem_cons, List.mem_map] at he
    rcases he with rfl | ⟨a, ha, rfl⟩
    · exact hl
    · exact hchain link t rfl a ha
  | group link clauses =>
    simp only [Clause.isLoose, decide_eq_false_iff_not] at hc
    have hl : link = .and := by cases link with | and => rfl | or => exact absurd rfl hc
    rw [items]
    cases listItems v.chain clauses with
    | nil => simp [grouped]
    | cons e rest => simp [grouped, hl]

/-- A clause that is not loose and does not compare with raw text is a single item. -/
theorem rest_eq_nil {c : Clause} (hc : c.isLoose = false) {link : Connector} {t : Test}
    (ht : c = .test link t) (hr : comparesRaw t = false) : (v.chain t).rest = [] := by
  refine v.single t (hasRaw_eq_false hr fun r h => ?_)
  subst ht h
  simp [Clause.isLoose] at hc

theorem holds_iff {t : Test} (ht : hasRaw t = false) :
    v.holds t ↔ (v.chain t).first = true := by
  simp [holds, Chain.items, v.single t ht, value, Item.valueFrom, Item.value]

/-- Behind a predicate, a test without raw text is one more item. -/
theorem listItems_append_test (cs : List Clause) {t : Test} (ht : hasRaw t = false) :
    listItems v.chain (cs ++ [.test .and t]) =
      listItems v.chain cs ++ [(.and, .atom (v.chain t).first)] := by
  simp [listItems_append, listItems, items, Chain.items, v.single t ht]

/-- A row passes a group when it passes what is inside. -/
theorem passes_group (link : Connector) (cs : List Clause) :
    v.passes [.group link cs] ↔ v.passes cs := by
  rw [passes_iff, passes_iff, listItems, listItems, List.append_nil, items, value_grouped]

theorem link_group (cs : List Clause) :
    ∀ e ∈ listItems v.chain [.group .and cs], e.1 = .and := by
  rw [listItems, listItems, List.append_nil, items]
  cases listItems v.chain cs <;> simp [grouped]

/-- **Tests narrow a predicate that is joined by AND** at its top. -/
theorem passes_append_tests {cs : List Clause} (hcs : ∀ e ∈ listItems v.chain cs, e.1 = .and)
    {tests : List Test} (ht : ∀ t ∈ tests, hasRaw t = false) :
    v.passes (cs ++ tests.map (.test .and)) ↔ v.passes cs ∧ ∀ t ∈ tests, v.holds t := by
  induction tests generalizing cs with
  | nil => simp
  | cons t tests ih =>
    have hraw : hasRaw t = false := ht t List.mem_cons_self
    have hitems := v.listItems_append_test cs hraw
    have hone : v.passes (cs ++ [.test .and t]) ↔ v.passes cs ∧ v.holds t := by
      rw [passes_iff, passes_iff, v.holds_iff hraw, hitems, value_append_and _ hcs]
      simp [Item.value]
    have hand : ∀ e ∈ listItems v.chain (cs ++ [.test .and t]), e.1 = .and := by
      intro e he
      rw [hitems, List.mem_append, List.mem_singleton] at he
      rcases he with he | rfl
      · exact hcs e he
      · rfl
    have hrest := ih hand fun u hu => ht u (List.mem_cons_of_mem t hu)
    have hsplit : cs ++ (t :: tests).map (.test .and) =
        (cs ++ [.test .and t]) ++ tests.map (.test .and) := by simp
    rw [hsplit, hrest, hone, List.forall_mem_cons, and_assoc]

/-- **A test narrows an isolated predicate.** The row passes both or fails what it is given. -/
theorem passes_isolate (q : Query) {t : Test} (ht : hasRaw t = false)
    (hr : ∀ link u, Clause.test link u ∈ q.wheres → comparesRaw u = false) :
    v.passes (q.isolate.wheres ++ [.test .and t]) ↔ v.passes q.wheres ∧ v.holds t := by
  have htests : ∀ u ∈ [t], hasRaw u = false := by simpa using ht
  rcases q.wheres_isolate with h | ⟨h, hl⟩
  · -- in one group, the predicate is one item
    have hnarrow := v.passes_append_tests (v.link_group q.wheres) htests
    rw [h]
    simpa [passes_group] using hnarrow
  · have hand : ∀ e ∈ listItems v.chain q.wheres, e.1 = .and := by
      intro e he
      obtain ⟨w, hw, he⟩ := mem_listItems he
      refine v.link_items (hl w hw) (fun link u hu a ha => ?_) e he
      rw [v.rest_eq_nil (hl w hw) hu (hr link u (hu ▸ hw))] at ha
      cases ha
    have hnarrow := v.passes_append_tests hand htests
    rw [h]
    simpa using hnarrow

end Verdict

end ActiveRow.Predicate
