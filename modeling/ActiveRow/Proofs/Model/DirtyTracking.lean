import ActiveRow.Proofs.Model.Baseline
import ActiveRow.Proofs.Model.Restoring

/-!
# Dirty attributes as a difference

The dirty attributes of a record are the difference between its attributes and its baseline. That
they also give the attributes back from the baseline rests on an invariant: no name of the baseline
is missing from the attributes. Every mutation of a record keeps it, since attributes are
overwritten and added and never removed one by one, and the baseline is only ever taken from them.

* `Mutation.covered_apply`, `Mutation.covered_run`: the invariant, over one mutation and over many.
* `Record.Covered.sameAttributes_overlay`: the baseline with the difference written over it.
* `tracked_run`: what holds of every record that is reached from a new one.
-/

namespace ActiveRow

/-- A mutation of a record. -/
inductive Mutation where
  | hydrate (row : Row)
  | set (key : String) (v : Value)
  | fill (pairs : List (String × Value))
  | setStored (stored : Bool)
  | markClean
  | replaceAttributes (attributes : Attributes)
  | setRelation (name : String) (related : Related Record)
  | withVisibility (hidden visible : List String)

namespace Mutation

def apply (r : Record) : Mutation → Record
  | hydrate row => r.hydrate row
  | set key v => r.set key v
  | fill pairs => r.fill pairs
  | setStored stored => r.setStored stored
  | markClean => r.markClean
  | replaceAttributes attributes => r.replaceAttributes attributes
  | setRelation name related => r.setRelation name related
  | withVisibility hidden visible => r.withVisibility hidden visible

/-- The record after mutations. -/
def run (mutations : List Mutation) (r : Record) : Record := mutations.foldl apply r

end Mutation

/-! ### The invariant -/

/-- Every name of the baseline is a name of the attributes. -/
def Record.Covered (r : Record) : Prop := ∀ key ∈ r.baseline.keys, key ∈ r.attributes.keys

namespace Mutation

variable {r : Record}

/-- A mutation keeps every name of the baseline among the attributes. -/
theorem covered_apply (m : Mutation) (h : r.Covered) : (m.apply r).Covered := by
  cases m with
  | hydrate row => exact fun _ hkey => hkey
  | set k v => exact fun key hkey => Keyed.mem_keys_insert k v (h key hkey)
  | fill pairs => exact fun key hkey => Keyed.mem_keys_insertMany pairs (h key hkey)
  | setStored stored => exact h
  | markClean => exact fun _ hkey => hkey
  | replaceAttributes attributes => exact fun _ hkey => hkey
  | setRelation name related => exact h
  | withVisibility hidden visible => exact h

/-- **Mutations keep the invariant.** -/
theorem covered_run (mutations : List Mutation) (h : r.Covered) : (run mutations r).Covered := by
  induction mutations generalizing r with
  | nil => exact h
  | cons m mutations ih => exact ih (m.covered_apply h)

end Mutation

/-! ### The difference -/

namespace Record

variable {r : Record}

/-- The baseline with the dirty attributes written over it. -/
def overlay (r : Record) : Attributes := r.baseline.insertMany r.dirty.entries

theorem mem_dirty_iff (e : String × Value) :
    e ∈ r.dirty.entries ↔ e ∈ r.attributes.entries ∧ r.isDirtyKey e.1 = true :=
  List.mem_filter

/-- Only an attribute is dirty. -/
theorem exists_of_isDirtyKey {key : String} (h : r.isDirtyKey key = true) :
    ∃ v, r.get? key = some v := by
  cases hv : r.get? key with
  | some v => exact ⟨v, rfl⟩
  | none =>
    have hnone : r.attributes.get? key = none := hv
    rw [isDirtyKey, hnone] at h
    cases h

theorem isDirty_iff_key : r.isDirty = true ↔ ∃ key, r.isDirtyKey key = true := by
  rw [isDirty, List.any_eq_true]
  constructor
  · rintro ⟨e, -, hdirty⟩
    exact ⟨e.1, hdirty⟩
  · rintro ⟨key, hdirty⟩
    obtain ⟨v, hv⟩ := exists_of_isDirtyKey hdirty
    exact ⟨(key, v), Pairs.mem_of_get? hv, hdirty⟩

theorem get?_overlay_of_dirty {key : String} (h : r.isDirtyKey key = true) :
    r.overlay.get? key = r.get? key := by
  obtain ⟨v, hv⟩ := exists_of_isDirtyKey h
  rw [overlay, Keyed.get?_insertMany, Keyed.get?_ofList_entries, get?_dirty, if_pos h, hv]
  rfl

theorem get?_overlay_of_clean {key : String} (h : r.isDirtyKey key = false) :
    r.overlay.get? key = r.baseline.get? key := by
  rw [overlay, Keyed.get?_insertMany, Keyed.get?_ofList_entries, get?_dirty, h]
  rfl

/-- **The difference and the baseline give the attributes**, when the baseline has no further
names. -/
theorem Covered.sameAttributes_overlay (h : r.Covered) : SameAttributes r.attributes r.overlay := by
  rw [overlay, dirty_eq_changesFrom]
  exact sameAttributes_insertMany h

theorem Covered.mem_keys_overlay (h : r.Covered) (key : String) :
    key ∈ r.overlay.keys ↔ key ∈ r.attributes.keys := by
  have hsame := h.sameAttributes_overlay key
  rw [← not_iff_not, ← Keyed.get?_eq_none_iff, ← Keyed.get?_eq_none_iff]
  cases hv : r.attributes.get? key with
  | none =>
    rw [hv] at hsame
    cases hw : r.overlay.get? key with
    | none => exact Iff.rfl
    | some w =>
      rw [hw] at hsame
      cases hsame
  | some v =>
    rw [hv] at hsame
    cases hw : r.overlay.get? key with
    | none =>
      rw [hw] at hsame
      cases hsame
    | some w => simp

/-- Taking an attribute back to its baseline makes it clean, when the value equals itself. -/
theorem isDirtyKey_set_baseline {key : String} {v : Value} (hv : r.baseline.get? key = some v)
    (hself : v.same v = true) : (r.set key v).isDirtyKey key = false := by
  have hget : (r.set key v).get? key = some v := by
    rw [get?, set, Keyed.get?_insert]
    exact if_pos rfl
  exact (clean_iff hget).2 ⟨v, hv, hself⟩

end Record

/-- The dirty attributes of a record are a faithful difference. -/
structure Record.Tracked (r : Record) : Prop where
  covered : r.Covered
  isDirty_iff_entries : r.isDirty = true ↔ r.dirty.entries ≠ []
  isDirty_iff_some : r.isDirty = true ↔ ∃ key, r.isDirtyKey key = true
  some_attributes : r.dirty.entries.Sublist r.attributes.entries
  mem_dirty : ∀ e, e ∈ r.dirty.entries ↔ e ∈ r.attributes.entries ∧ r.isDirtyKey e.1 = true
  overlay_keys : ∀ key, key ∈ r.overlay.keys ↔ key ∈ r.attributes.keys
  overlay_dirty : ∀ key v, r.get? key = some v → r.isDirtyKey key = true →
    r.overlay.get? key = some v
  overlay_clean : ∀ key v, r.get? key = some v → r.isDirtyKey key = false →
    ∃ w, r.overlay.get? key = some w ∧ v.same w = true
  taken_back : ∀ key v, r.baseline.get? key = some v → v.same v = true →
    (r.set key v).isDirtyKey key = false ∧
      ∀ other, other ≠ key → (r.set key v).isDirtyKey other = r.isDirtyKey other

/-- **Dirty tracking is a faithful difference** on every record that mutations make of a new one. -/
theorem tracked_run (table primaryKey : String) (mutations : List Mutation) :
    (Mutation.run mutations { table, primaryKey }).Tracked := by
  have hnew : Record.Covered { table, primaryKey } := fun _ hkey => absurd hkey List.not_mem_nil
  have hcovered := Mutation.covered_run mutations hnew
  generalize Mutation.run mutations { table, primaryKey } = r at hcovered
  exact
    { covered := hcovered
      isDirty_iff_entries := r.isDirty_iff
      isDirty_iff_some := Record.isDirty_iff_key
      some_attributes := r.dirty_sublist
      mem_dirty := Record.mem_dirty_iff
      overlay_keys := hcovered.mem_keys_overlay
      overlay_dirty := fun key v hv hdirty => (Record.get?_overlay_of_dirty hdirty).trans hv
      overlay_clean := by
        intro key v hv hclean
        obtain ⟨w, hw, hsame⟩ := (clean_iff hv).1 hclean
        exact ⟨w, (Record.get?_overlay_of_clean hclean).trans hw, hsame⟩
      taken_back := by
        intro key v hv hself
        have hclean := Record.isDirtyKey_set_baseline hv hself
        exact ⟨hclean, fun other hother => Record.isDirtyKey_set hother.symm v⟩ }

end ActiveRow
