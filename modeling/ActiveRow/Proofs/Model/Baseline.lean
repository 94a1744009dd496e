import Mathlib.Data.List.Induction
import ActiveRow.Proofs.Model.RowStore
import ActiveRow.Proofs.Value.Formed

/-!
# Clean attributes and the stored row

An attribute is clean when it equals its baseline, and the baseline is what the record was last
known to have in its row. Saving, restoring and reloading keep it so. Deletion by a mark takes all
attributes for stored but writes only the marks, so a change that is pending is lost from sight,
unless the row has it anyway.

* `Backed.step`: the invariant, from which it follows that clean attributes are as stored, and what
  a deletion needs to keep it.
* `faithful_iff`: clean attributes are as stored after every change exactly when every deletion
  finds the pending changes in the row.
* `clean_not_stored`: a run that loses a change.
-/

namespace ActiveRow

/-- All values of attributes are well formed. -/
def Formed (a : Attributes) : Prop := ∀ key v, a.get? key = some v → v.WellFormed

theorem Formed.insert {a : Attributes} (h : Formed a) (key : String) {v : Value}
    (hv : v.WellFormed) : Formed (a.insert key v) := by
  intro k w hw
  rw [Keyed.get?_insert] at hw
  split at hw
  · cases hw; exact hv
  · exact h k w hw

theorem Formed.insertMany {a : Attributes} (h : Formed a) {pairs : List (String × Value)}
    (hp : ∀ e ∈ pairs, e.2.WellFormed) : Formed (a.insertMany pairs) := by
  intro k w hw
  rw [Keyed.get?_insertMany] at hw
  rcases Option.or_eq_some_iff.1 hw with hw | ⟨-, hw⟩
  · exact hp _ (Keyed.mem_of_get?_ofList hw)
  · exact h k w hw

/-! ### Records and rows -/

/-- **Clean attributes are as stored**: each has an equal value in the row. -/
def Faithful (r : Record) (row : Row) : Prop :=
  ∀ key v, r.get? key = some v → r.isDirtyKey key = false →
    ∃ w, row.get? key = some w ∧ v.same w = true

/-- What equals the baseline equals the stored value, for a record that has a row. -/
structure Backed (r : Record) (row : Row) : Prop where
  stored : r.stored = true
  attributes_formed : Formed r.attributes
  row_formed : Formed row
  covers : ∀ key b, r.baseline.get? key = some b → ∀ v : Value, v.WellFormed → v.same b = true →
    ∃ w, row.get? key = some w ∧ v.same w = true

theorem get?_dirty (r : Record) (key : String) :
    r.dirty.get? key = if r.isDirtyKey key then r.get? key else none :=
  Keyed.get?_filter r.attributes r.isDirtyKey key

theorem clean_iff {r : Record} {key : String} {v : Value} (hv : r.get? key = some v) :
    r.isDirtyKey key = false ↔ ∃ b, r.baseline.get? key = some b ∧ v.same b = true := by
  have hv : r.attributes.get? key = some v := hv
  unfold Record.isDirtyKey
  rw [hv]
  cases r.baseline.get? key <;> simp

namespace Backed

variable {r : Record} {row : Row}

theorem faithful (h : Backed r row) : Faithful r row := by
  intro key v hv hc
  obtain ⟨b, hb, hs⟩ := (clean_iff hv).1 hc
  exact h.covers key b hb v (h.attributes_formed key v hv) hs

theorem hydrate (m : Model) (h : Formed row) : Backed (m.hydrate row) row :=
  ⟨rfl, h, h, fun _ b hb _ _ hs => ⟨b, hb, hs⟩⟩

theorem set (h : Backed r row) (key : String) {v : Value} (hv : v.WellFormed) :
    Backed (r.set key v) row :=
  ⟨h.stored, h.attributes_formed.insert key hv, h.row_formed, h.covers⟩

theorem touched (h : Backed r row) (m : Model) (now : Timestamp) :
    Backed (m.touched now r) row := by
  unfold Model.touched
  split
  · exact h.set m.updatedAt trivial
  · exact h

/-- Writing the dirty attributes makes all attributes stored. -/
theorem written (h : Backed r row) : Backed r.markClean (row.insertMany r.dirty.entries) := by
  have hget : ∀ key, (row.insertMany r.dirty.entries).get? key =
      (if r.isDirtyKey key then r.get? key else none).or (row.get? key) := fun key => by
    rw [Keyed.get?_insertMany, Keyed.get?_ofList_entries, get?_dirty]
  have hformed : ∀ e ∈ r.dirty.entries, e.2.WellFormed := fun e he =>
    h.attributes_formed e.1 e.2
      (Pairs.get?_of_mem r.attributes.nodup (List.mem_of_mem_filter he))
  refine ⟨h.stored, h.attributes_formed, h.row_formed.insertMany hformed, ?_⟩
  intro key b hb v hv hs
  have hb : r.get? key = some b := hb
  rw [hget, hb]
  cases hd : r.isDirtyKey key with
  | true => exact ⟨b, rfl, hs⟩
  | false =>
    -- a clean attribute is not written, since the row has an equal value
    obtain ⟨w, hw, hbw⟩ := h.faithful key b hb hd
    exact ⟨w, by simpa using hw, Value.same_trans hs hbw⟩

theorem reloaded (h : Backed r row) : Backed (r.replaceAttributes row) row :=
  ⟨h.stored, h.row_formed, h.row_formed, fun _ b hb _ _ hs => ⟨b, hb, hs⟩⟩

end Backed

/-- A deletion at this moment loses no change: the row has every pending one that the marks do not
overwrite. A value that differs from itself stays dirty, and is not lost. -/
def Model.DeletesCleanly (m : Model) (now : Timestamp) (r : Record) (row : Row) : Prop :=
  ∀ key v, r.get? key = some v → r.isDirtyKey key = true →
    key ∉ Pairs.keys (m.deletionMarks now) → v.same v = true →
      ∃ w, row.get? key = some w ∧ v.same w = true

theorem wellFormed_deletionMarks (m : Model) (now : Timestamp) :
    ∀ e ∈ m.deletionMarks now, e.2.WellFormed := by
  unfold Model.deletionMarks
  split <;> simp [Value.WellFormed]

/-- **What a deletion needs.** Writing the marks makes all attributes stored when nothing else was
pending. -/
theorem Backed.deleted {m : Model} {now : Timestamp} {r : Record} {row : Row} (h : Backed r row)
    (hd : m.DeletesCleanly now r row) :
    Backed (r.fill (m.deletionMarks now)).markClean (row.insertMany (m.deletionMarks now)) := by
  have hmarks := wellFormed_deletionMarks m now
  refine ⟨h.stored, h.attributes_formed.insertMany hmarks, h.row_formed.insertMany hmarks, ?_⟩
  intro key b hb v hv hs
  have hb : (r.attributes.insertMany (m.deletionMarks now)).get? key = some b := hb
  rw [Keyed.get?_insertMany] at hb ⊢
  cases hm : (Keyed.ofList (m.deletionMarks now)).get? key with
  | some x =>
    rw [hm, Option.some_or] at hb
    exact ⟨b, hb, hs⟩
  | none =>
    rw [hm, Option.none_or] at hb
    rw [Option.none_or]
    have hkey := (Keyed.get?_ofList_eq_none_iff _ key).1 hm
    have hself := Value.same_right hv (h.attributes_formed key b hb) hs
    have hstored : ∃ w, row.get? key = some w ∧ b.same w = true := by
      cases hdirty : r.isDirtyKey key with
      | true => exact hd key b hb hdirty hkey hself
      | false => exact h.faithful key b hb hdirty
    obtain ⟨w, hw, hbw⟩ := hstored
    exact ⟨w, hw, Value.same_trans hs hbw⟩

/-! ### Runs -/

section

variable {σ : Type} {m : Model} {c : Connection σ} {row : σ → Row}

theorem Backed.updated {now : Timestamp} {r r' : Record} {st st' : σ}
    (hk : ∀ key, (m.touched now r).knownKey? = some key → m.Keeps c row key st)
    (h : Backed r (row st)) (hu : Change.kept ((m.update c now r).run st) = some (r', st')) :
    Backed r' (row st') := by
  rcases Model.update_eq hu with ⟨-, rfl, rfl⟩ | ⟨key, hkey, hw, rfl⟩
  · exact h
  · rw [(hk key hkey).writes hw]
    exact (h.touched m now).written

/-- **The invariant of changes.** Only a deletion needs more than well-formed values. -/
theorem Backed.step (hs : m.softDeletes = true) {change : Change} {r r' : Record} {st st' : σ}
    (hk : ∀ key, change.rowKey? m r = some key → m.Keeps c row key st) (h : Backed r (row st))
    (hf : ∀ key v, change = .set key v → v.WellFormed)
    (hd : ∀ now, change = .delete now → m.DeletesCleanly now r (row st))
    (hstep : change.step m c (r, st) = some (r', st')) : Backed r' (row st') := by
  cases change with
  | set key v =>
    cases hstep
    exact h.set key (m.wellFormed_castValue key (hf key v rfl))
  | save now => exact h.updated hk (Model.save_eq h.stored hstep)
  | delete now =>
    obtain ⟨key, hkey, hw, rfl⟩ := Model.delete_eq hs h.stored hstep
    rw [(hk key hkey).writes hw]
    exact h.deleted (hd now rfl)
  | restore now =>
    have hr := h.set m.deletedAt (v := .null) trivial
    exact hr.updated hk (Model.save_eq hr.stored (Model.restore_eq hs h.stored hstep))
  | refresh =>
    obtain ⟨key, found, hkey, hread, rfl⟩ := Model.refresh_eq hstep
    obtain ⟨rfl, hrow⟩ := (hk key hkey).reads hread
    rw [hrow]
    exact h.reloaded

/-- **What a deletion loses.** Where clean attributes are as stored behind a deletion, it found the
pending changes in the row. -/
theorem deletesCleanly_of_faithful (hs : m.softDeletes = true) {now : Timestamp} {r r' : Record}
    {st st' : σ} (hk : ∀ key, r.knownKey? = some key → m.Keeps c row key st) (hr : r.stored = true)
    (hstep : (Change.delete now).step m c (r, st) = some (r', st')) (h : Faithful r' (row st')) :
    m.DeletesCleanly now r (row st) := by
  obtain ⟨key, hkey, hw, rfl⟩ := Model.delete_eq hs hr hstep
  rw [(hk key hkey).writes hw] at h
  intro key v hv _ hkey hself
  have hm := (Keyed.get?_ofList_eq_none_iff (m.deletionMarks now) key).2 hkey
  have hv' : (r.fill (m.deletionMarks now)).markClean.get? key = some v := by
    show (r.attributes.insertMany (m.deletionMarks now)).get? key = some v
    rw [Keyed.get?_insertMany, hm, Option.none_or]
    exact hv
  obtain ⟨w, hw, hvw⟩ := h key v hv' ((clean_iff hv').2 ⟨v, hv', hself⟩)
  rw [Keyed.get?_insertMany, hm, Option.none_or] at hw
  exact ⟨w, hw, hvw⟩

/-- The invariant holds along a run whose deletions find the pending changes in the row. -/
theorem Backed.run (hs : m.softDeletes = true) {first : Record × σ}
    (hfirst : Backed first.1 (row first.2)) (changes : List Change) :
    m.KeepsAlong c row changes first → (∀ key v, .set key v ∈ changes → v.WellFormed) →
    (∀ past now, past ++ [.delete now] <+: changes → ∀ r st,
      Change.run m c past first = some (r, st) → Backed r (row st) →
        m.DeletesCleanly now r (row st)) →
    ∀ r st, Change.run m c changes first = some (r, st) → Backed r (row st) := by
  -- on the run from its end, since the condition is on what stands before a deletion
  induction changes using List.reverseRecOn with
  | nil =>
    intro _ _ _ r st h
    cases h
    exact hfirst
  | append_singleton changes change ih =>
    intro hk hf hd r st h
    obtain ⟨r', st', hrun, hstep⟩ := Change.run_concat h
    have hprefix : changes <+: changes ++ [change] := List.prefix_append _ _
    have hr' : Backed r' (row st') :=
      ih (hk.of_prefix hprefix) (fun key v hv => hf key v (List.mem_append_left _ hv))
        (fun past now hp => hd past now (hp.trans hprefix)) r' st' hrun
    have hkeeps := hk changes change List.prefix_rfl r' st' hrun
    refine hr'.step hs hkeeps (fun key v hv => hf key v (by simp [hv])) (fun now hnow => ?_) hstep
    exact hd changes now (hnow ▸ List.prefix_rfl) r' st' hrun hr'

/-- **When clean attributes are as stored.** A record is hydrated from its row and changed, and
every change gives a result. Clean attributes are as stored after every change exactly when every
deletion finds in the row the pending changes that it does not write itself. -/
theorem faithful_iff (hs : m.softDeletes = true) {changes : List Change} {start : σ}
    (hk : m.KeepsAlong c row changes (m.hydrate (row start), start))
    (hf : ∀ key v, .set key v ∈ changes → v.WellFormed) (hrow : Formed (row start))
    {s : Record × σ} (hrun : Change.run m c changes (m.hydrate (row start), start) = some s) :
    (∀ past, past <+: changes → ∀ r st,
      Change.run m c past (m.hydrate (row start), start) = some (r, st) → Faithful r (row st)) ↔
    ∀ past now, past ++ [.delete now] <+: changes → ∀ r st,
      Change.run m c past (m.hydrate (row start), start) = some (r, st) →
        m.DeletesCleanly now r (row st) := by
  have hfirst : Backed (m.hydrate (row start)) (row start) := .hydrate m hrow
  have hsets : ∀ {past}, past <+: changes → ∀ key v, .set key v ∈ past → v.WellFormed :=
    fun hp key v hv => hf key v (hp.subset hv)
  constructor
  · intro h
    -- behind a deletion, clean attributes tell what it found
    have found : ∀ past now, past ++ [.delete now] <+: changes → ∀ r st,
        Change.run m c past (m.hydrate (row start), start) = some (r, st) →
          Backed r (row st) → m.DeletesCleanly now r (row st) := by
      intro past now hp r st hpast hb
      obtain ⟨r', st', hrun'⟩ := Change.run_of_prefix hp hrun
      obtain ⟨r₁, st₁, hpast', hstep⟩ := Change.run_concat hrun'
      cases hpast.symm.trans hpast'
      have hkeeps := hk past (.delete now) hp r st hpast
      exact deletesCleanly_of_faithful hs hkeeps hb.stored hstep (h _ hp r' st' hrun')
    intro past now hp r st hpast
    have hpre : past <+: changes := (List.prefix_append _ _).trans hp
    have hb : Backed r (row st) := Backed.run hs hfirst past (hk.of_prefix hpre) (hsets hpre)
      (fun p now' hp' => found p now' (hp'.trans hpre)) r st hpast
    exact found past now hp r st hpast hb
  · intro h past hp r st hpast
    exact (Backed.run hs hfirst past (hk.of_prefix hp) (hsets hp)
      (fun p now hp' r st hr _ => h p now (hp'.trans hp) r st hr) r st hpast).faithful

end

/-! ### A lost change -/

/-- A store of one post. -/
def postStore : RowStore := ⟨{ table := "posts", softDeletes := true }, ["title", "deleted_at"]⟩

/-- A post as it is stored at first. -/
def storedPost : Row := .ofList [("id", .int 1), ("title", .text "a"), ("deleted_at", .null)]

/-- A post is given another title, and deleted before that is saved. -/
def renamedAndDeleted : List Change := [.set "title" (.text "b"), .delete default]

theorem formed_storedPost : Formed storedPost := by
  intro key v hv
  have hm := Keyed.mem_of_get?_ofList hv
  simp only [List.mem_cons, List.not_mem_nil, or_false, Prod.mk.injEq] at hm
  rcases hm with ⟨-, rfl⟩ | ⟨-, rfl⟩ | ⟨-, rfl⟩ <;> trivial

/-- The key of the post stays the one that its row has. -/
theorem keepsAlong_renamedAndDeleted :
    postStore.model.KeepsAlong postStore.connection id renamedAndDeleted
      (postStore.model.hydrate (id storedPost), storedPost) := by
  intro past change hp r st hrun key hkey
  match past, hp with
  | [], hp =>
    obtain ⟨rfl, -⟩ := List.cons_prefix_cons.1 hp
    cases hkey
  | [first], hp =>
    obtain ⟨rfl, hrest⟩ := List.cons_prefix_cons.1 hp
    obtain ⟨rfl, -⟩ := List.cons_prefix_cons.1 hrest
    cases hrun
    cases hkey
    exact postStore.keeps rfl
  | _ :: _ :: _, hp =>
    have hlength := hp.length_le
    simp [renamedAndDeleted] at hlength

/-- Both sides are about the post that is renamed and deleted, whose run gives a result. -/
theorem faithful_iff_renamedAndDeleted :
    let m := postStore.model
    let c := postStore.connection
    m.softDeletes = true ∧
      m.KeepsAlong c id renamedAndDeleted (m.hydrate (id storedPost), storedPost) ∧
      (∀ key v, .set key v ∈ renamedAndDeleted → v.WellFormed) ∧ Formed (id storedPost) ∧
      ∃ s, Change.run m c renamedAndDeleted (m.hydrate (id storedPost), storedPost) = some s ∧
        ((∀ past, past <+: renamedAndDeleted → ∀ r st,
          Change.run m c past (m.hydrate (id storedPost), storedPost) = some (r, st) →
            Faithful r (id st)) ↔
        ∀ past now, past ++ [.delete now] <+: renamedAndDeleted → ∀ r st,
          Change.run m c past (m.hydrate (id storedPost), storedPost) = some (r, st) →
            m.DeletesCleanly now r (id st)) := by
  intro m c
  have hf : ∀ key v, .set key v ∈ renamedAndDeleted → v.WellFormed := by
    intro key v hv
    simp only [renamedAndDeleted, List.mem_cons, List.not_mem_nil, or_false, Change.set.injEq,
      reduceCtorEq] at hv
    obtain ⟨-, rfl⟩ := hv
    trivial
  have hrun : ∃ s, Change.run m c renamedAndDeleted (m.hydrate (id storedPost), storedPost) =
      some s := ⟨_, rfl⟩
  obtain ⟨s, hs⟩ := hrun
  exact ⟨rfl, keepsAlong_renamedAndDeleted, hf, formed_storedPost, s, hs,
    faithful_iff rfl keepsAlong_renamedAndDeleted hf formed_storedPost hs⟩

/-- **A deletion hides a pending change.** The title is clean after it, and not what is stored. -/
theorem clean_not_stored : ∃ r row,
    Change.run postStore.model postStore.connection renamedAndDeleted
      (postStore.model.hydrate storedPost, storedPost) = some (r, row) ∧
        r.isDirtyKey "title" = false ∧ ¬ Faithful r row := by
  refine ⟨_, _, rfl, rfl, fun h => ?_⟩
  obtain ⟨w, hw, hs⟩ := h "title" (.text "b") rfl rfl
  cases hw
  cases hs

end ActiveRow
