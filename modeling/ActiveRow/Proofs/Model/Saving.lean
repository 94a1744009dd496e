import ActiveRow.Proofs.Model.Failure
import ActiveRow.Proofs.Model.RowStatement

/-!
# What a save sends

A record that has a row is saved by one statement that sets the attributes which differ from the
baseline, and no other. Before that a model with times sets the time of change, unless that is a
pending change itself. A record without pending changes is left alone.

* `dirty_eq_changesFrom`: the dirty attributes are those that differ from the baseline.
* `update_eq_pure`, `update_eq_ofAction`: what an update is, over any connection.
* `sameAttributes_insertMany`: what differs, written over the baseline, gives the attributes.
* `save_sends_changes`: all of it, over a scripted connection.
-/

namespace ActiveRow

/-! ### Changes against a baseline -/

/-- Whether an attribute is missing from a baseline or has another value there. -/
def differsFrom (baseline : Attributes) (e : String × Value) : Bool :=
  (baseline.get? e.1).all fun o => !e.2.same o

/-- The attributes that are missing from a baseline or have another value there, in order. -/
def changesFrom (baseline attributes : Attributes) : Attributes :=
  attributes.filter (differsFrom baseline)

/-- Two lists of attributes have the same names, each with one value or with structurally equal
ones. -/
def SameAttributes (a b : Attributes) : Prop :=
  ∀ key, Option.Rel (fun v w => v = w ∨ v.same w = true) (a.get? key) (b.get? key)

theorem get?_of_mem_entries {a : Attributes} {e : String × Value} (h : e ∈ a.entries) :
    a.get? e.1 = some e.2 :=
  Pairs.get?_of_mem a.nodup h

theorem Record.isDirtyKey_eq (r : Record) {e : String × Value} (h : e ∈ r.attributes.entries) :
    r.isDirtyKey e.1 = differsFrom r.baseline e := by
  rw [isDirtyKey, differsFrom, get?_of_mem_entries h]
  cases r.baseline.get? e.1 <;> rfl

theorem Record.dirty_eq_changesFrom (r : Record) :
    r.dirty = changesFrom r.baseline r.attributes :=
  Keyed.ext (List.filter_congr fun _ he => r.isDirtyKey_eq he)

theorem Record.isDirty_iff_differsFrom (r : Record) :
    r.isDirty = true ↔ ∃ e ∈ r.attributes.entries, differsFrom r.baseline e = true := by
  rw [isDirty, List.any_eq_true]
  refine exists_congr fun e => and_congr_right fun he => ?_
  rw [r.isDirtyKey_eq he]

/-- **The changes and the baseline give the attributes**, when the baseline has no further
columns. -/
theorem sameAttributes_insertMany {baseline attributes : Attributes}
    (hsub : ∀ key ∈ baseline.keys, key ∈ attributes.keys) :
    SameAttributes attributes (baseline.insertMany (changesFrom baseline attributes).entries) := by
  intro key
  rw [Keyed.get?_insertMany, Keyed.get?_ofList_entries]
  cases hv : attributes.get? key with
  | none =>
    -- neither the changes nor the baseline have a column that the attributes lack
    have hchanges : (changesFrom baseline attributes).get? key = none := by
      rw [Keyed.get?_eq_none_iff] at hv ⊢
      exact fun hk => hv (((List.filter_sublist).map Prod.fst).subset hk)
    have hbaseline : baseline.get? key = none := by
      rw [Keyed.get?_eq_none_iff] at hv ⊢
      exact fun hk => hv (hsub key hk)
    rw [hchanges, hbaseline]
    exact .none
  | some v =>
    have hmem : (key, v) ∈ attributes.entries := Pairs.mem_of_get? hv
    cases hd : differsFrom baseline (key, v) with
    | true =>
      have hchange : (key, v) ∈ (changesFrom baseline attributes).entries :=
        List.mem_filter.2 ⟨hmem, hd⟩
      rw [get?_of_mem_entries hchange]
      exact .some (.inl rfl)
    | false =>
      have hchanges : (changesFrom baseline attributes).get? key = none := by
        rw [Keyed.get?_eq_none_iff]
        intro hk
        obtain ⟨e, he, rfl⟩ := List.mem_map.1 hk
        obtain ⟨he, hde⟩ := List.mem_filter.1 he
        obtain rfl : e.2 = v := Option.some.inj ((get?_of_mem_entries he).symm.trans hv)
        rw [hd] at hde
        cases hde
      rw [hchanges, Option.none_or]
      cases hb : baseline.get? key with
      | none => simp [differsFrom, hb] at hd
      | some o => exact .some (.inr (by simpa [differsFrom, hb] using hd))

/-! ### The time of change -/

namespace Model

variable {m : Model} {now : Timestamp} {r : Record}

/-- The attributes that a save of changes stores: with the time of change, for a model that keeps
times and a record that has no other one pending. -/
def timed (m : Model) (now : Timestamp) (r : Record) : Attributes :=
  if m.timestamps = true ∧ r.isDirtyKey m.updatedAt = false then
    r.attributes.insert m.updatedAt (.timestamp now)
  else r.attributes

/-- The time of change takes no column away. -/
theorem mem_keys_timed {column : String} (h : column ∈ r.attributes.keys) :
    column ∈ (m.timed now r).keys := by
  unfold timed
  split
  · exact Keyed.mem_keys_insert m.updatedAt _ h
  · exact h

theorem touched_eq (m : Model) (now : Timestamp) (r : Record) :
    m.touched now r = { r with attributes := m.timed now r } := by
  rw [touched, timed]
  by_cases h : m.timestamps = true ∧ r.isDirtyKey m.updatedAt = false
  · rw [if_pos h, if_pos (by simpa using h)]
    rfl
  · rw [if_neg h, if_neg (by simpa using h)]
    -- records nest, so this is no identity by definition
    cases r
    rfl

theorem dirty_touched_ne_nil (h : r.isDirty = true) : (m.touched now r).dirty.entries ≠ [] := by
  obtain ⟨e, he⟩ := List.exists_mem_of_ne_nil _ (r.isDirty_iff.1 h)
  exact List.ne_nil_of_mem (mem_dirty_touched now (show (e.1, e.2) ∈ r.dirty.entries from he))

/-- A record with a known key has one also with its time of change. -/
theorem knownKey?_touched (m : Model) (now : Timestamp) {key : Value}
    (hkey : r.knownKey? = some key) :
    ∃ rowKey, (m.touched now r).knownKey? = some rowKey ∧
      (m.updatedAt ≠ r.primaryKey → rowKey = key) := by
  unfold touched
  split
  · by_cases hcolumn : m.updatedAt = r.primaryKey
    · have hnow : (r.set m.updatedAt (.timestamp now)).key? = some (.timestamp now) := by
        rw [Record.key?, Record.get?, Record.set, Keyed.get?_insert]
        exact if_pos hcolumn
      refine ⟨.timestamp now, ?_, fun hne => absurd hcolumn hne⟩
      rw [Record.knownKey?, hnow]
      rfl
    · have hkept : (r.set m.updatedAt (.timestamp now)).key? = r.key? := by
        rw [Record.key?, Record.get?, Record.set, Keyed.get?_insert]
        exact if_neg hcolumn
      refine ⟨key, ?_, fun _ => rfl⟩
      rw [Record.knownKey?, hkept]
      exact hkey
  · exact ⟨key, hkey, fun _ => rfl⟩

/-! ### The statement -/

variable {σ : Type} {c : Connection σ}

/-- A record without pending changes is left alone. -/
theorem update_eq_pure (h : r.isDirty = false) : m.update c now r = pure ⟨r, .ok ()⟩ := by
  rw [update, h]
  rfl

/-- **An update is one statement**, which sets the pending changes in the row of the key. -/
theorem update_eq_ofAction (h : r.isDirty = true) :
    m.update c now r =
      match (m.touched now r).knownKey? with
      | some key =>
        Outcome.ofAction (m.touched now r)
          (c.update (m.rowUpdate c.dialect key (m.touched now r).dirty.entries))
          fun _ => ⟨(m.touched now r).markClean, .ok ()⟩
      | none => pure ⟨m.touched now r, .error (.validation (.keyless m.table m.primaryKey))⟩ := by
  have hsteps : m.update c now r = Outcome.ofAction (m.touched now r)
      (do
        let key ← .ofExcept (m.requireKey (m.touched now r))
        discard <| (m.rowQuery key).update c (assignments (m.touched now r).dirty.entries))
      fun _ => ⟨(m.touched now r).markClean, .ok ()⟩ := if_pos h
  rw [hsteps, m.ofAction_requireKey]
  cases hk : (m.touched now r).knownKey? with
  | some key =>
    simp only
    rw [Outcome.ofAction_discard,
      m.update_rowQuery c (isNull_of_knownKey? hk) (dirty_touched_ne_nil h)]
  | none => rfl

end Model

/-- **What saving changes did**, over a scripted connection: it sent one statement, which sets the
changes in the row of the key, and a success makes the attributes the baseline. -/
structure SentChanges {υ : Type} (m : Model) (name : String) (d : Dialect) (r : Record)
    (key : Value) (attributes : Attributes) (st : Script υ) (after : Outcome Unit × Script υ) :
    Prop where
  sent : after.2.log = st.log ++
    [Script.request name (m.rowUpdate d key (changesFrom r.baseline attributes).entries)]
  stored : ∀ out, st.reply name = .ok out →
    after.1 = ⟨{ r with attributes := attributes, baseline := attributes }, .ok ()⟩
  failed : ∀ cause, st.reply name = .error cause →
    after.1 = ⟨{ r with attributes := attributes }, .error cause⟩

theorem sentChanges_update {υ : Type} {m : Model} {driver name : String} {d : Dialect}
    {scope : Except Fault (Option String)} {now : Timestamp} {r : Record} {key : Value}
    (h : r.isDirty = true) (hkey : (m.touched now r).knownKey? = some key) (st : Script υ) :
    SentChanges m name d r key (m.timed now r) st
      ((m.update (Script.connection driver d name scope) now r).run st) := by
  let c : Connection (Script υ) := Script.connection driver d name scope
  have hdirty : (m.touched now r).dirty = changesFrom r.baseline (m.timed now r) := by
    rw [Record.dirty_eq_changesFrom, m.touched_eq]
  have hupdate : m.update c now r =
      Outcome.ofAction { r with attributes := m.timed now r }
        (c.update (m.rowUpdate d key (changesFrom r.baseline (m.timed now r)).entries))
        fun _ => ⟨{ r with attributes := m.timed now r, baseline := m.timed now r }, .ok ()⟩ := by
    rw [← hdirty, ← m.touched_eq]
    have hclean : (m.touched now r).markClean =
        { r with attributes := m.timed now r, baseline := m.timed now r } := by
      rw [m.touched_eq]
      rfl
    rw [← hclean, Model.update_eq_ofAction h, hkey]
    rfl
  change SentChanges m name d r key (m.timed now r) st ((m.update c now r).run st)
  rw [hupdate]
  obtain ⟨hlog, hended⟩ : Script.SentOne _ _ _ st name _ := Script.sentOne_update _ _ _ st
  refine ⟨hlog, fun out hreply => ?_, fun cause hreply => ?_⟩
  · rw [hreply] at hended
    exact hended
  · rw [hreply] at hended
    exact hended

/-- A new time of change is one of the changes. -/
theorem Model.mem_changesFrom_timed {m : Model} {now : Timestamp} {r : Record}
    (htimes : m.timestamps = true) (hclean : r.isDirtyKey m.updatedAt = false)
    (hnew : differsFrom r.baseline (m.updatedAt, .timestamp now) = true) :
    (m.updatedAt, .timestamp now) ∈ (changesFrom r.baseline (m.timed now r)).entries := by
  have htime : (m.timed now r).get? m.updatedAt = some (.timestamp now) := by
    rw [timed, if_pos ⟨htimes, hclean⟩, Keyed.get?_insert]
    exact if_pos rfl
  exact List.mem_filter.2 ⟨Pairs.mem_of_get? htime, hnew⟩

/-- **A save sends exactly the changes.** A stored record with a key, whose baseline has no columns
but its own, is left alone if no attribute differs from the baseline, and nothing is sent. Otherwise
one statement sets what differs from the baseline, with the time of change among it, in the row of
the key. A success makes the attributes the baseline. The changes written over the old baseline are
the attributes. -/
theorem save_sends_changes {υ : Type} {m : Model} {driver name : String} {d : Dialect}
    {scope : Except Fault (Option String)} {now : Timestamp} {r : Record} {key : Value}
    (hr : r.stored = true) (hkey : r.knownKey? = some key)
    (hsub : ∀ column ∈ r.baseline.keys, column ∈ r.attributes.keys) (st : Script υ) :
    let after := (m.save (Script.connection driver d name scope) now r).run st
    let attributes := m.timed now r
    let changes := (changesFrom r.baseline attributes).entries
    ((∀ e ∈ r.attributes.entries, differsFrom r.baseline e = false) → after = (⟨r, .ok ()⟩, st)) ∧
    ((∃ e ∈ r.attributes.entries, differsFrom r.baseline e = true) →
      (∃ rowKey, attributes.get? r.primaryKey = some rowKey ∧ rowKey.isNull = false ∧
        (m.updatedAt ≠ r.primaryKey → rowKey = key) ∧
        SentChanges m name d r rowKey attributes st after) ∧
      (Pairs.keys changes).Nodup ∧
      (m.timestamps = true → r.isDirtyKey m.updatedAt = false →
        differsFrom r.baseline (m.updatedAt, .timestamp now) = true →
        (m.updatedAt, .timestamp now) ∈ changes) ∧
      SameAttributes attributes (r.baseline.insertMany changes)) := by
  intro after attributes changes
  have hsave : m.save (Script.connection driver d name scope : Connection (Script υ)) now r =
      m.update (Script.connection driver d name scope) now r := if_pos hr
  refine ⟨fun hclean => ?_, fun hchange => ?_⟩
  · have hd : r.isDirty = false := by
      rw [← Bool.not_eq_true, r.isDirty_iff_differsFrom]
      rintro ⟨e, he, hde⟩
      rw [hclean e he] at hde
      cases hde
    change (m.save (Script.connection driver d name scope) now r).run st = _
    rw [hsave, Model.update_eq_pure hd]
    rfl
  · have hd : r.isDirty = true := r.isDirty_iff_differsFrom.2 hchange
    obtain ⟨rowKey, hrow, hsame⟩ := m.knownKey?_touched now hkey
    have hget : attributes.get? r.primaryKey = some rowKey := by
      have hfiltered := hrow
      rw [m.touched_eq] at hfiltered
      exact (Option.filter_eq_some_iff.1 hfiltered).1
    have hsent : SentChanges m name d r rowKey attributes st after := by
      change SentChanges m name d r rowKey attributes st
        ((m.save (Script.connection driver d name scope) now r).run st)
      rw [hsave]
      exact sentChanges_update hd hrow st
    have hcolumns : ∀ column ∈ r.baseline.keys, column ∈ attributes.keys :=
      fun column hc => Model.mem_keys_timed (hsub column hc)
    exact ⟨⟨rowKey, hget, Model.isNull_of_knownKey? hrow, hsame, hsent⟩,
      (changesFrom r.baseline attributes).nodup, Model.mem_changesFrom_timed,
      sameAttributes_insertMany hcolumns⟩

/-- A renamed post is saved by its new title and the time of change. -/
theorem save_sends_changes_renamed :
    let c : Connection (Script Unit) := Script.connection "postgres" .postgres "main" (.ok none)
    let after := (timedPosts.save c default renamedPost).run (Script.start ())
    renamedPost.stored = true ∧ renamedPost.knownKey? = some (.int 1) ∧
      (∀ column ∈ renamedPost.baseline.keys, column ∈ renamedPost.attributes.keys) ∧
      (∃ e ∈ renamedPost.attributes.entries, differsFrom renamedPost.baseline e = true) ∧
      after.2.log = [⟨"main", "UPDATE posts SET title = $1, updated_at = $2 WHERE id = $3",
        [.text "b", .timestamp default, .int 1]⟩] ∧
      after.1.record.baseline = after.1.record.attributes := by
  intro c after
  have hstored : renamedPost.stored = true := rfl
  have hkey : renamedPost.knownKey? = some (.int 1) := rfl
  have hsub : ∀ column ∈ renamedPost.baseline.keys, column ∈ renamedPost.attributes.keys := by
    decide
  have hchange : ∃ e ∈ renamedPost.attributes.entries,
      differsFrom renamedPost.baseline e = true :=
    ⟨("title", .text "b"), Pairs.mem_of_get? rfl, rfl⟩
  obtain ⟨⟨rowKey, -, -, hrow, hsent⟩, -⟩ :=
    (@save_sends_changes Unit timedPosts "postgres" "main" .postgres (.ok none) default renamedPost
      (.int 1) hstored hkey hsub (Script.start ())).2 hchange
  obtain rfl : rowKey = .int 1 := hrow (by decide)
  refine ⟨hstored, hkey, hsub, hchange, hsent.sent.trans ?_, ?_⟩
  · rfl
  · rw [hsent.stored (.affected 0) rfl]

end ActiveRow
