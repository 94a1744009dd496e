import Mathlib.Order.Lattice
import ActiveRow.Proofs.Predicate.Verdict

/-!
# Tables

A table as far as queries on it are concerned: rows with their keys, with the cells that are shown
of them, and with a verdict on every test. A query gives the rows that pass its predicate, in its
order, cut at its extent.

* `firstKeys_of_gives`: a query in the order of keys gives the rows of the first keys that pass.
-/

namespace ActiveRow

open Predicate

/-- A row of a table whose rows have keys in `κ`. -/
structure TableRow (κ : Type) where
  key : κ
  cells : Row
  verdict : Verdict

variable {κ : Type}

/-- Whether a row of this key passes a predicate. -/
def HasPassing (table : List (TableRow κ)) (cs : List Clause) (k : κ) : Prop :=
  ∃ row ∈ table, row.key = k ∧ row.verdict.passes cs

namespace Query

/-- The part of a list within the extent of a query. -/
def cut {α : Type} (q : Query) (l : List α) : List α :=
  let rest := match q.offset with
    | some n => l.drop n.toNat
    | none => l
  match q.limit with
  | some n => rest.take n.toNat
  | none => rest

theorem cut_sublist {α : Type} (q : Query) (l : List α) : (q.cut l).Sublist l := by
  have hrest : (match q.offset with | some n => l.drop n.toNat | none => l).Sublist l := by
    cases q.offset with
    | none => exact .refl l
    | some n => exact List.drop_sublist _ l
  unfold cut
  cases q.limit with
  | none => exact hrest
  | some n => exact (List.take_sublist _ _).trans hrest

variable [LinearOrder κ]

/-- Whether rows are in the order of a query, where it is the order of the column of keys. -/
def Orders (q : Query) (column : String) (rows : List (TableRow κ)) : Prop :=
  match q.orders with
  | .column n .asc :: _ => n = column → rows.Pairwise (·.key ≤ ·.key)
  | .column n .desc :: _ => n = column → rows.Pairwise (·.key ≥ ·.key)
  | _ => True

/-- Whether a query may give these rows of a table that has its keys in a column. -/
def Gives (q : Query) (column : String) (table rows : List (TableRow κ)) : Prop :=
  ∃ all : List (TableRow κ),
    all.Perm (table.filter fun row => row.verdict.passes q.wheres) ∧
      q.Orders column all ∧ rows = q.cut all

theorem Gives.mem_table {q : Query} {column : String} {table rows : List (TableRow κ)}
    (h : q.Gives column table rows) {row : TableRow κ} (hrow : row ∈ rows) : row ∈ table := by
  obtain ⟨all, hperm, -, rfl⟩ := h
  exact (List.mem_filter.1 (hperm.mem_iff.1 ((q.cut_sublist all).mem hrow))).1

end Query

variable [LinearOrder κ]

/-- The first `n` of the keys that are as `P` says, in order; all of these, if there are fewer. -/
structure FirstKeys (n : Nat) (P : κ → Prop) (ks : List κ) : Prop where
  ascending : ks.Pairwise (· < ·)
  length_le : ks.length ≤ n
  sound : ∀ k ∈ ks, P k
  reaches : ∀ k, P k → k ∈ ks ∨ (ks.length = n ∧ ∀ k' ∈ ks, k' < k)

/-- Keys that are fewer than asked for are all there are. -/
theorem FirstKeys.mem_of_short {n : Nat} {P : κ → Prop} {ks : List κ} (h : FirstKeys n P ks)
    (hn : ks.length < n) {k : κ} (hk : P k) : k ∈ ks := by
  rcases h.reaches k hk with hk | ⟨hlen, _⟩
  · exact hk
  · omega

/-- **A query in the order of keys gives the first keys that pass.** -/
theorem firstKeys_of_gives {q : Query} {column : String} {n : UInt64}
    {table rows : List (TableRow κ)} (h : q.Gives column table rows)
    (ho : q.orders = [.column column .asc]) (hl : q.limit = some n) (hf : q.offset = none)
    (hd : (table.map TableRow.key).Nodup) :
    FirstKeys n.toNat (HasPassing table q.wheres) (rows.map TableRow.key) := by
  obtain ⟨all, hperm, hsorted, hrows⟩ := h
  have hcut : rows = all.take n.toNat := by rw [hrows, Query.cut, hl, hf]
  have hle : all.Pairwise (·.key ≤ ·.key) := by
    rw [Query.Orders, ho] at hsorted
    exact hsorted rfl
  -- keys are distinct, so the order is strict
  have hne : (all.map TableRow.key).Nodup :=
    (hperm.map _).nodup_iff.2 (hd.sublist (List.filter_sublist.map _))
  have hlt : all.Pairwise (·.key < ·.key) :=
    hle.imp₂ (fun _ _ hle hne => lt_of_le_of_ne hle hne) (List.pairwise_map.1 hne)
  have hmem : ∀ row, row ∈ all ↔ row ∈ table ∧ row.verdict.passes q.wheres := fun row => by
    rw [hperm.mem_iff, List.mem_filter, decide_eq_true_iff]
  have hparts : all = rows ++ all.drop n.toNat := by rw [hcut, List.take_append_drop]
  have happend := List.pairwise_append.1 (hparts ▸ hlt)
  refine ⟨List.pairwise_map.2 happend.1, ?_, fun k hk => ?_, fun k hk => ?_⟩
  · rw [List.length_map, hcut]
    exact List.length_take_le _ _
  · obtain ⟨row, hrow, rfl⟩ := List.mem_map.1 hk
    have hrow := (hmem row).1 (hparts ▸ List.mem_append_left _ hrow)
    exact ⟨row, hrow.1, rfl, hrow.2⟩
  · obtain ⟨row, hrow, rfl, hpass⟩ := hk
    rcases List.mem_append.1 (hparts ▸ (hmem row).2 ⟨hrow, hpass⟩) with hin | hin
    · exact .inl (List.mem_map_of_mem hin)
    · -- a row that is cut off stands behind a full page
      refine .inr ⟨?_, fun k' hk' => ?_⟩
      · have hlen := List.length_pos_of_mem hin
        rw [List.length_drop] at hlen
        rw [List.length_map, hcut, List.length_take]
        omega
      · obtain ⟨row', hrow', rfl⟩ := List.mem_map.1 hk'
        exact happend.2.2 row' hrow' row hin

end ActiveRow
