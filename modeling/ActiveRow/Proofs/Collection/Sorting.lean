import ActiveRow.Collection
import ActiveRow.Proofs.Sorting
import ActiveRow.Proofs.Value.Comparison

/-!
# Sorted collections

A collection is sorted by an attribute, in one direction or the other, by comparing the values that
its records have there, a missing one being null. Where comparisons are passed on among these
values, as they are unless a float is nearest to two of the integers, the sorted records are the
only ones that are in order and keep the order of records that compare equal.

* `Collection.orders_compareOn`: when an attribute orders the records.
* `Collection.sorts_by`: what sorting by an attribute gives.
-/

namespace ActiveRow.Collection

variable {c : Collection} {name : String}

/-- An attribute orders the records when comparisons are passed on among its values. -/
theorem orders_compareOn (h : ∀ u ∈ c.pluck name, ∀ v ∈ c.pluck name, ∀ w ∈ c.pluck name,
    u.compare v ≠ .gt → v.compare w ≠ .gt → u.compare w ≠ .gt) :
    Sorting.Orders (compareOn c.model name) c.items := by
  have hvalue : ∀ r ∈ c.items, (c.model.get? r name).getD .null ∈ c.pluck name :=
    fun r hr => List.mem_map_of_mem hr
  exact ⟨fun a b => Value.compare_swap _ _, fun a ha b hb d hd =>
    h _ (hvalue a ha) _ (hvalue b hb) _ (hvalue d hd)⟩

/-- **Sorting by an attribute.** Take a collection among whose values of an attribute comparisons
are passed on, a missing one counting as null. Sorting in either direction keeps exactly its
records, puts none before one that is less in that direction, and leaves records that compare equal
in their order. Sorting down is sorting up the reversed records, reversed. Sorting again changes
nothing, and any comparison that agrees on the records sorts them the same way. -/
theorem sorts_by (h : ∀ u ∈ c.pluck name, ∀ v ∈ c.pluck name, ∀ w ∈ c.pluck name,
    u.compare v ≠ .gt → v.compare w ≠ .gt → u.compare w ≠ .gt) :
    let up := compareOn c.model name
    let down := fun a b => compareOn c.model name b a
    Sorting.Sorts up c.items (c.sortBy name).items ∧
    Sorting.Sorts down c.items (c.sortByDesc name).items ∧
    (c.sortByDesc name).items =
      (sortBy { c with items := c.items.reverse } name).items.reverse ∧
    (c.sortBy name).sortBy name = c.sortBy name ∧
    (c.sortByDesc name).sortByDesc name = c.sortByDesc name ∧
    ∀ cmp : Record → Record → Ordering, (∀ a ∈ c.items, ∀ b ∈ c.items, cmp a b = up a b) →
      c.sortWith cmp = c.sortBy name ∧ c.sortWithDesc cmp = c.sortByDesc name := by
  intro up down
  have horders : Sorting.Orders up c.items := orders_compareOn h
  have hup : Sorting.Sorts up c.items (c.sortBy name).items := Sorting.sorts_sort horders
  have hdown : Sorting.Sorts down c.items (c.sortByDesc name).items :=
    Sorting.sorts_sort horders.flip
  refine ⟨hup, hdown, ?_, ?_, ?_, fun cmp hcmp => ⟨?_, ?_⟩⟩
  · exact hdown.unique horders.flip (Sorting.sorts_reverse horders)
  · exact congrArg (Collection.mk c.model) (Sorting.sort_of_ascending horders.swap hup.ascending)
  · exact congrArg (Collection.mk c.model)
      (Sorting.sort_of_ascending horders.flip.swap hdown.ascending)
  · exact congrArg (Collection.mk c.model) (Sorting.sort_congr hcmp)
  · exact congrArg (Collection.mk c.model)
      (Sorting.sort_congr fun a ha b hb => hcmp b hb a ha)

/-- Five items with prices that are integers and floats, two of which are level and one missing. -/
theorem sorts_by_price :
    let m : Model := { table := "items" }
    let item (id price : Value) : Record := m.hydrate (.ofList [("id", id), ("price", price)])
    let c : Collection := ⟨m, [item (.int 1) (.int 30), item (.int 2) (.float ⟨0x4024000000000000⟩),
      item (.int 3) (.int 20), item (.int 4) (.int 10), m.hydrate (.ofList [("id", .int 5)])]⟩
    (∀ u ∈ c.pluck "price", ∀ v ∈ c.pluck "price", ∀ w ∈ c.pluck "price",
      u.compare v ≠ .gt → v.compare w ≠ .gt → u.compare w ≠ .gt) ∧
    (c.sortByDesc "price").items =
      (sortBy { c with items := c.items.reverse } "price").items.reverse ∧
    (c.sortByDesc "price").keys.map Value.plain = ["1", "3", "2", "4", "5"] := by
  intro m item c
  have h : ∀ u ∈ c.pluck "price", ∀ v ∈ c.pluck "price", ∀ w ∈ c.pluck "price",
      u.compare v ≠ .gt → v.compare w ≠ .gt → u.compare w ≠ .gt := by decide +kernel
  exact ⟨h, (sorts_by h).2.2.1, by decide +kernel⟩

end ActiveRow.Collection
