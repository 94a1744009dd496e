import Mathlib.Data.List.Induction
import ActiveRow.Collection
import ActiveRow.Proofs.FirstSeen

/-!
# Groups of records

Records are put into groups one by one, each into the group of its label, which is made when there
is none. The groups then are a partition of the records: one for each label, where it is first seen,
with the records of the label in their order.

* `Groups.add`: the step for one more record.
* `Groups.get?_eq`, `Groups.existsUnique`: what the groups are, and that each record is in one.
* `Collection.groupBy_partitions`: what grouping by an attribute gives.
-/

namespace ActiveRow

variable {α : Type}

/-- Groups of items that have labels: one for each label, where it is first seen, holding the items
of the label, and together as many of each item as there are. -/
structure Groups (label : α → String) (items : List α) (groups : Keyed (List α)) : Prop where
  names : FirstSeen (items.map label) groups.keys
  members : ∀ k, (groups.get? k).getD [] = items.filter fun x => label x = k
  perm : (groups.entries.flatMap Prod.snd).Perm items

/-- An item more in one group is an item more in all. -/
theorem Pairs.flatMap_put_perm (k : String) (x : α) (l : List (String × List α)) :
    ((put k ((get? k l).getD [] ++ [x]) l).flatMap Prod.snd).Perm (l.flatMap Prod.snd ++ [x]) := by
  induction l with
  | nil => exact .refl [x]
  | cons e l ih =>
    obtain ⟨k', group⟩ := e
    by_cases hk : k' = k
    · simp only [put, get?, hk, if_true, Option.getD_some, List.flatMap_cons, List.append_assoc]
      exact List.perm_append_comm.append_left group
    · simp only [put, get?, hk, if_false, List.flatMap_cons, List.append_assoc]
      exact ih.append_left group

namespace Groups

variable {label : α → String} {items : List α} {groups : Keyed (List α)}

theorem nil : Groups label [] Keyed.empty where
  names := .nil
  members _ := rfl
  perm := .refl []

/-- **One more item** goes to the end of the group of its label. -/
theorem add (h : Groups label items groups) (x : α) :
    Groups label (items ++ [x])
      (groups.insert (label x) ((groups.get? (label x)).getD [] ++ [x])) where
  names := by
    rw [List.map_append, List.map_singleton, Keyed.keys_insert]
    split
    · exact h.names.seen ‹_›
    · exact h.names.new ‹_›
  members k := by
    rw [Keyed.get?_insert, List.filter_append]
    by_cases hk : label x = k
    · rw [if_pos hk, Option.getD_some, h.members, hk]
      simp [hk]
    · rw [if_neg hk, h.members]
      simp [hk]
  perm := (Pairs.flatMap_put_perm (label x) x groups.entries).trans (h.perm.append_right [x])

variable (h : Groups label items groups)

include h

/-- **The group of a label** holds the items of the label in their order. -/
theorem get?_eq (k : String) : groups.get? k =
    if k ∈ items.map label then some (items.filter fun x => label x = k) else none := by
  have hmembers := h.members k
  cases hk : groups.get? k with
  | none =>
    have hnot : k ∉ items.map label := (h.names.mem_iff k).not.1 ((groups.get?_eq_none_iff k).1 hk)
    rw [if_neg hnot]
  | some group =>
    have hkey : k ∈ items.map label := by
      by_contra hnot
      rw [(groups.get?_eq_none_iff k).2 ((h.names.mem_iff k).not.2 hnot)] at hk
      cases hk
    rw [if_pos hkey, ← hmembers, hk, Option.getD_some]

theorem snd_eq {e : String × List α} (he : e ∈ groups.entries) :
    e.2 = items.filter fun x => label x = e.1 := by
  have hget : groups.get? e.1 = some e.2 := Pairs.get?_of_mem groups.nodup he
  rw [← h.members, hget, Option.getD_some]

/-- No group is empty. -/
theorem snd_ne_nil {e : String × List α} (he : e ∈ groups.entries) : e.2 ≠ [] := by
  obtain ⟨x, hx, hlabel⟩ := List.mem_map.1 ((h.names.mem_iff e.1).1 (List.mem_map_of_mem he))
  rw [h.snd_eq he]
  exact List.ne_nil_of_mem (List.mem_filter.2 ⟨hx, decide_eq_true hlabel⟩)

/-- **Every item is in one group**, that of its label. -/
theorem existsUnique {x : α} (hx : x ∈ items) : ∃! e, e ∈ groups.entries ∧ x ∈ e.2 := by
  have hget : groups.get? (label x) = some (items.filter fun y => label y = label x) := by
    rw [h.get?_eq, if_pos (List.mem_map_of_mem hx)]
  refine ⟨_, ⟨Pairs.mem_of_get? hget, List.mem_filter.2 ⟨hx, decide_eq_true rfl⟩⟩, ?_⟩
  rintro e ⟨he, hin⟩
  have hlabel : label x = e.1 := by
    rw [h.snd_eq he] at hin
    exact of_decide_eq_true (List.mem_filter.1 hin).2
  exact Prod.ext hlabel.symm (by rw [h.snd_eq he, hlabel])

/-- Items that all have one label are one group. -/
theorem entries_of_label {k : String} (hne : items ≠ []) (hlabel : ∀ x ∈ items, label x = k) :
    groups.entries = [(k, items)] := by
  have hall : ∀ e ∈ groups.entries, e = (k, items) := by
    intro e he
    obtain ⟨x, hx, hkey⟩ := List.mem_map.1 ((h.names.mem_iff e.1).1 (List.mem_map_of_mem he))
    have hk : e.1 = k := hkey.symm.trans (hlabel x hx)
    refine Prod.ext hk ?_
    rw [h.snd_eq he, hk, List.filter_eq_self]
    exact fun y hy => decide_eq_true (hlabel y hy)
  cases hentries : groups.entries with
  | nil =>
    have hnil : items = [] := by simpa [hentries] using h.perm
    exact absurd hnil hne
  | cons e rest =>
    rw [hentries] at hall
    cases rest with
    | nil => rw [hall e List.mem_cons_self]
    | cons e' rest =>
      -- a second group would have the name of the first
      have hnodup := groups.nodup
      have hsame : e = e' := (hall e List.mem_cons_self).trans
        (hall e' (List.mem_cons_of_mem e List.mem_cons_self)).symm
      simp [hentries, hsame] at hnodup

end Groups

namespace Collection

/-- The label of a record: the plain text of an attribute, or the empty text where it is missing. -/
def label (m : Model) (name : String) (r : Record) : String :=
  match m.get? r name with
  | some v => v.plain
  | none => ""

theorem groups_groupBy (c : Collection) (name : String) :
    Groups (label c.model name) c.items (c.groupBy name) := by
  obtain ⟨m, items⟩ := c
  induction items using List.reverseRecOn with
  | nil => exact .nil
  | append_singleton items r ih =>
    have hlabel : label m name r = ((m.get? r name).map Value.plain).getD "" := by
      rw [label]
      cases m.get? r name <;> rfl
    have hadd := ih.add r
    rw [hlabel] at hadd
    rw [groupBy, List.foldl_append]
    exact hadd

/-- **Grouping by an attribute partitions a collection.** There is one group for each label, in the
order in which the labels are first seen. The group of a label holds the records of the label, in
their order, and none is empty. Every record is in exactly one group, and the groups one after the
other are the records, rearranged. Grouping the records of a group again gives that group alone. -/
theorem groupBy_partitions (c : Collection) (name : String) :
    let text := label c.model name
    let groups := c.groupBy name
    FirstSeen (c.items.map text) groups.keys ∧
    (∀ k, groups.get? k =
      if k ∈ c.items.map text then some (c.items.filter fun r => text r = k) else none) ∧
    (∀ e ∈ groups.entries, e.2 ≠ [] ∧ e.2.Sublist c.items ∧
      ∀ r, r ∈ e.2 ↔ r ∈ c.items ∧ text r = e.1) ∧
    (∀ r ∈ c.items, ∃! e, e ∈ groups.entries ∧ r ∈ e.2) ∧
    (groups.entries.flatMap Prod.snd).Perm c.items ∧
    ∀ e ∈ groups.entries, (groupBy { c with items := e.2 } name).entries = [e] := by
  intro text groups
  have h : Groups text c.items groups := groups_groupBy c name
  have hmem : ∀ e ∈ groups.entries, ∀ r, r ∈ e.2 ↔ r ∈ c.items ∧ text r = e.1 := by
    intro e he r
    rw [h.snd_eq he, List.mem_filter, decide_eq_true_iff]
  refine ⟨h.names, h.get?_eq, fun e he => ⟨h.snd_ne_nil he, ?_, hmem e he⟩,
    fun r hr => h.existsUnique hr, h.perm, fun e he => ?_⟩
  · rw [h.snd_eq he]
    exact List.filter_sublist
  · exact (groups_groupBy { c with items := e.2 } name).entries_of_label (h.snd_ne_nil he)
      fun r hr => ((hmem e he r).1 hr).2

/-- An integer and a text that reads like it share a group, and so do null and a missing value. -/
example :
    let m : Model := { table := "items" }
    let item (n : Int64) (v : Value) : Record := m.hydrate (.ofList [("id", .int n), ("v", v)])
    let c : Collection := ⟨m, [item 1 (.int 7), item 2 .null, item 3 (.text "7"),
      m.hydrate (.ofList [("id", .int 4)])]⟩
    (c.groupBy "v").entries.map (fun e => (e.1, keys { c with items := e.2 } |>.map Value.plain)) =
      [("7", ["1", "3"]), ("", ["2", "4"])] := by
  decide +kernel

end Collection

end ActiveRow
