import ActiveRow.Proofs.Model.Change

/-!
# Calls that fail

What a call on a record leaves behind when it gives a fault, whatever the connection did meanwhile.
Saving may have set times in the record, and restoring has taken the mark of deletion off. All else
is as it was, the baseline above all, so pending changes stay pending.

* `Attempt.changesOnly`: what a failed call may have changed in the record.
* `Model.writes_of_save`: a save that gives a result sends every pending change.
* `failures_keep_changes`: a change that is pending stays so through failed calls, and the next save
  that gives a result sends it.
-/

namespace ActiveRow

/-- A call for the row of a record. Times are taken from `now`. -/
inductive Attempt where
  | save (now : Timestamp)
  | delete (now : Timestamp)
  | forceDelete
  | restore (now : Timestamp)
  | refresh

namespace Attempt

variable {σ : Type}

/-- The record and the state after an operation, if it gave a fault. -/
def left {α : Type} : Outcome α × σ → Option (Record × σ)
  | (⟨r, .error _⟩, st) => some (r, st)
  | (⟨_, .ok _⟩, _) => none

/-- The record and the state of the connection after a call, if it failed. -/
def fail (m : Model) (c : Connection σ) : Attempt → Record × σ → Option (Record × σ)
  | save now, (r, st) => left ((m.save c now r).run st)
  | delete now, (r, st) => left ((m.delete c now r).run st)
  | forceDelete, (r, st) => left ((m.forceDelete c r).run st)
  | restore now, (r, st) => left ((m.restore c now r).run st)
  | refresh, (r, st) => left ((m.refresh c r).run st)

/-- The record and the state after calls, if all of them failed. -/
def failAll (m : Model) (c : Connection σ) : List Attempt → Record × σ → Option (Record × σ)
  | [], s => some s
  | a :: rest, s => (a.fail m c s).bind (failAll m c rest)

/-- The columns that a call sets before it sends anything. -/
def columns (m : Model) : Attempt → List String
  | save _ => [m.createdAt, m.updatedAt]
  | restore _ => [m.deletedAt, m.createdAt, m.updatedAt]
  | delete _ | forceDelete | refresh => []

end Attempt

/-! ### Records that differ in some columns -/

/-- One record is the other, but for its attributes under these names. -/
structure Record.ChangesOnly (columns : List String) (r r' : Record) : Prop where
  frame : { r with attributes := r'.attributes } = r'
  others : (r'.attributes.entries.filter fun e => e.1 ∉ columns) =
    r.attributes.entries.filter fun e => e.1 ∉ columns

theorem Pairs.filter_put {α : Type} (key : String) (v : α) (l : List (String × α)) :
    ((put key v l).filter fun e => e.1 ∉ [key]) = l.filter fun e => e.1 ∉ [key] := by
  induction l with
  | nil => simp [put]
  | cons e l ih =>
    by_cases hk : e.1 = key
    · simp [put, hk]
    · simp only [put, hk, if_false, List.filter_cons, ih]

namespace Record.ChangesOnly

variable {columns columns' : List String} {r r' r'' : Record}

theorem refl (columns : List String) (r : Record) : r.ChangesOnly columns r :=
  ⟨by cases r; rfl, rfl⟩

theorem mono (h : r.ChangesOnly columns r') (hsub : columns ⊆ columns') :
    r.ChangesOnly columns' r' := by
  refine ⟨h.frame, ?_⟩
  -- what is outside of the more columns is outside of the fewer
  have hnarrow : ∀ l : List (String × Value), (l.filter fun e => e.1 ∉ columns') =
      (l.filter fun e => e.1 ∉ columns).filter fun e => e.1 ∉ columns' := by
    intro l
    rw [List.filter_filter]
    refine List.filter_congr fun e _ => ?_
    by_cases he : e.1 ∈ columns'
    · simp [he]
    · have hne : e.1 ∉ columns := fun hc => he (hsub hc)
      simp [he, hne]
  rw [hnarrow, h.others, ← hnarrow]

theorem trans (h : r.ChangesOnly columns r') (h' : r'.ChangesOnly columns' r'') :
    r.ChangesOnly (columns ++ columns') r'' := by
  have h := h.mono (List.subset_append_left columns columns')
  have h' := h'.mono (List.subset_append_right columns columns')
  refine ⟨?_, h'.others.trans h.others⟩
  rw [← h'.frame, ← h.frame]

theorem set (r : Record) (key : String) (v : Value) : r.ChangesOnly [key] (r.set key v) :=
  ⟨rfl, Pairs.filter_put key v r.attributes.entries⟩

theorem eq_of_nil (h : r.ChangesOnly [] r') : r' = r := by
  have hall : ∀ l : List (String × Value), (l.filter fun e => e.1 ∉ ([] : List String)) = l :=
    fun l => List.filter_eq_self.2 (by simp)
  have hentries : r'.attributes.entries = r.attributes.entries := by
    rw [← hall r'.attributes.entries, h.others, hall]
  rw [← h.frame, Keyed.ext hentries]
  -- records nest, so this is no identity by definition
  cases r
  rfl

/-- An attribute of another column is as before. -/
theorem get?_eq (h : r.ChangesOnly columns r') {key : String} (hk : key ∉ columns) :
    r'.get? key = r.get? key := by
  have hothers := congrArg (Pairs.get? key) h.others
  rw [Pairs.get?_filter (fun k => k ∉ columns), Pairs.get?_filter (fun k => k ∉ columns),
    if_pos (by simpa using hk), if_pos (by simpa using hk)] at hothers
  exact hothers

/-- A pending change of another column is pending as before. -/
theorem mem_dirty (h : r.ChangesOnly columns r') {key : String} {v : Value}
    (hk : key ∉ columns) (hd : (key, v) ∈ r.dirty.entries) : (key, v) ∈ r'.dirty.entries := by
  obtain ⟨hmem, hdirty⟩ := List.mem_filter.1 hd
  have hmem' : (key, v) ∈ r'.attributes.entries := by
    have hrest : (key, v) ∈ r.attributes.entries.filter fun e => e.1 ∉ columns :=
      List.mem_filter.2 ⟨hmem, by simpa using hk⟩
    rw [← h.others] at hrest
    exact (List.mem_filter.1 hrest).1
  have hget : r.attributes.get? key = some v := Pairs.get?_of_mem r.attributes.nodup hmem
  have hget' : r'.attributes.get? key = some v := Pairs.get?_of_mem r'.attributes.nodup hmem'
  have hbaseline : r'.baseline = r.baseline := by rw [← h.frame]
  refine List.mem_filter.2 ⟨hmem', ?_⟩
  rw [← hdirty, Record.isDirtyKey, Record.isDirtyKey, hget, hget', hbaseline]

end Record.ChangesOnly

/-! ### Times -/

namespace Model

variable (m : Model) (now : Timestamp) (r : Record)

theorem changesOnly_setDefault (key : String) (v : Value) :
    r.ChangesOnly [key] (setDefault key v r) := by
  unfold setDefault
  split
  · exact .set r key v
  · exact .refl _ r

theorem changesOnly_stamped : r.ChangesOnly [m.createdAt, m.updatedAt] (m.stamped now r) := by
  unfold stamped
  split
  · exact (changesOnly_setDefault r _ _).trans (changesOnly_setDefault _ _ _)
  · exact .refl _ r

theorem changesOnly_touched : r.ChangesOnly [m.updatedAt] (m.touched now r) := by
  unfold touched
  split
  · exact .set r _ _
  · exact .refl _ r

end Model

/-- The time of change is not taken from now when it is itself a pending change. -/
theorem Model.mem_dirty_touched {m : Model} (now : Timestamp) {r : Record} {key : String}
    {v : Value} (hd : (key, v) ∈ r.dirty.entries) : (key, v) ∈ (m.touched now r).dirty.entries := by
  by_cases hk : key = m.updatedAt
  · have hdirty : r.isDirtyKey m.updatedAt = true := hk ▸ (List.mem_filter.1 hd).2
    rwa [touched, hdirty, Bool.not_true, Bool.and_false, if_neg Bool.false_ne_true]
  · exact (m.changesOnly_touched now r).mem_dirty (by simpa using hk) hd

/-! ### What a failed call did -/

namespace Attempt

variable {σ α β : Type}

/-- An operation that fails only with its action leaves the record that it started with. -/
theorem left_ofAction {r r' : Record} {a : Action σ β} {record : β → Record} {result : β → α}
    {st st' : σ} (h : left ((Outcome.ofAction r a fun b => ⟨record b, .ok (result b)⟩).run st) =
      some (r', st')) : r' = r := by
  rw [Outcome.run_ofAction] at h
  rcases ha : a.from_ st with ⟨x, st''⟩
  rw [ha] at h
  cases x with
  | error cause =>
    cases h
    rfl
  | ok b => cases h

variable {m : Model} {c : Connection σ} {r r' : Record} {st st' : σ}

/-- An update that fails leaves the record with its time of change. -/
theorem eq_touched_of_update {now : Timestamp}
    (h : left ((m.update c now r).run st) = some (r', st')) : r' = m.touched now r := by
  unfold Model.update at h
  split at h
  · exact left_ofAction h
  · cases h

theorem changesOnly_save {now : Timestamp}
    (h : left ((m.save c now r).run st) = some (r', st')) :
    r.ChangesOnly [m.createdAt, m.updatedAt] r' := by
  unfold Model.save at h
  split at h
  · rw [eq_touched_of_update h]
    exact (m.changesOnly_touched now r).mono (List.subset_cons_self ..)
  · unfold Model.insert at h
    rw [left_ofAction h]
    exact m.changesOnly_stamped now r

theorem changesOnly_forceDelete (h : left ((m.forceDelete c r).run st) = some (r', st')) :
    r.ChangesOnly [] r' := by
  unfold Model.forceDelete at h
  split at h
  · rw [left_ofAction h]
    exact .refl _ r
  · cases h

theorem changesOnly_delete {now : Timestamp}
    (h : left ((m.delete c now r).run st) = some (r', st')) : r.ChangesOnly [] r' := by
  unfold Model.delete at h
  split at h
  · cases h
  · split at h
    · exact changesOnly_forceDelete h
    · rw [left_ofAction h]
      exact .refl _ r

/-- A failed restore is a failed save of the record without its mark of deletion. -/
theorem save_of_restore {now : Timestamp}
    (h : left ((m.restore c now r).run st) = some (r', st')) :
    m.softDeletes = true ∧ r.stored = true ∧
      left ((m.save c now (r.set m.deletedAt .null)).run st) = some (r', st') := by
  unfold Model.restore at h
  split at h
  · rename_i hmarked
    obtain ⟨hs, hr⟩ := (Bool.and_eq_true ..).mp hmarked
    refine ⟨hs, hr, ?_⟩
    rw [StateT.run_bind] at h
    rcases hsave : (m.save c now (r.set m.deletedAt .null)).run st with ⟨⟨r₁, result⟩, st₁⟩
    rw [hsave] at h
    cases result with
    | ok _ => cases h
    | error cause =>
      cases h
      rfl
  · cases h

theorem changesOnly_restore {now : Timestamp}
    (h : left ((m.restore c now r).run st) = some (r', st')) :
    r.ChangesOnly [m.deletedAt, m.createdAt, m.updatedAt] r' := by
  obtain ⟨-, -, hsave⟩ := save_of_restore h
  exact (Record.ChangesOnly.set r m.deletedAt .null).trans (changesOnly_save hsave)

/-- **What a failed call did** to the record: it set some of its columns, and nothing else. -/
theorem changesOnly {a : Attempt} (h : a.fail m c (r, st) = some (r', st')) :
    r.ChangesOnly (a.columns m) r' := by
  cases a with
  | save now => exact changesOnly_save h
  | delete now => exact changesOnly_delete h
  | forceDelete => exact changesOnly_forceDelete h
  | restore now => exact changesOnly_restore h
  | refresh =>
    rw [left_ofAction h]
    exact .refl _ r

theorem changesOnly_failAll : ∀ {attempts : List Attempt} {r : Record} {st : σ},
    failAll m c attempts (r, st) = some (r', st') →
      r.ChangesOnly (attempts.flatMap (columns m)) r'
  | [], _, _, h => by
    cases h
    exact .refl _ _
  | a :: rest, r, st, h => by
    obtain ⟨⟨r₁, st₁⟩, ha, hrest⟩ := Option.bind_eq_some_iff.1 h
    exact (changesOnly ha).trans (changesOnly_failAll hrest)

end Attempt

/-- **What a save sends.** When it gives a result for a record that has a row, it wrote every change
that was pending. -/
theorem Model.writes_of_save {σ : Type} {m : Model} {c : Connection σ} {now : Timestamp}
    {r r' : Record} {st st' : σ} (hr : r.stored = true)
    (h : Change.kept ((m.save c now r).run st) = some (r', st')) {key : String} {v : Value}
    (hd : (key, v) ∈ r.dirty.entries) :
    ∃ rowKey values, m.Writes c rowKey values st st' ∧ (key, v) ∈ values := by
  obtain ⟨hclean, -, -⟩ | ⟨rowKey, -, hw, -⟩ := update_eq (save_eq hr h)
  · have hdirty := r.isDirty_iff.2 (List.ne_nil_of_mem hd)
    rw [hclean] at hdirty
    cases hdirty
  · exact ⟨rowKey, _, hw, mem_dirty_touched now hd⟩

/-- **Failed calls lose no pending change.** Whatever made them fail, they leave the record as it
was, but for the columns that saving and restoring set. A change of another column is still pending
after them, with its value, and when the record has a row, the next save that gives a result sends
it, over whatever connection. -/
theorem failures_keep_changes {σ : Type} {m : Model} {c : Connection σ} {attempts : List Attempt}
    {r r' : Record} {st st' : σ} (h : Attempt.failAll m c attempts (r, st) = some (r', st')) :
    r.ChangesOnly (attempts.flatMap (Attempt.columns m)) r' ∧
      (attempts.flatMap (Attempt.columns m) = [] → r' = r) ∧
      ∀ key v, (key, v) ∈ r.dirty.entries → key ∉ attempts.flatMap (Attempt.columns m) →
        (key, v) ∈ r'.dirty.entries ∧
        (r.stored = true → ∀ (τ : Type) (c' : Connection τ) (now : Timestamp) (s s' : τ)
          (saved : Record), Change.kept ((m.save c' now r').run s) = some (saved, s') →
            ∃ rowKey values, m.Writes c' rowKey values s s' ∧ (key, v) ∈ values) := by
  have hc := Attempt.changesOnly_failAll h
  refine ⟨hc, fun hnil => (hnil ▸ hc).eq_of_nil, fun key v hd hk => ?_⟩
  have hd' := hc.mem_dirty hk hd
  refine ⟨hd', fun hr τ c' now s s' saved hsave => ?_⟩
  have hr' : r'.stored = true := by rw [← hc.frame]; exact hr
  exact Model.writes_of_save hr' hsave hd'

/-! ### A change that waits -/

/-- A connection that answers every request alike, and counts them. -/
def Connection.answering (answer : Except Fault Output) : Connection Nat :=
  .ofAdapter
    { dialect := .postgres
      driver := "postgres"
      connect := pure ()
      disconnect := pure ()
      begin_ := pure ()
      commit := pure ()
      rollback := pure ()
      query := fun _ _ n => (answer, n + 1) }

def timedPosts : Model := { table := "posts", timestamps := true, softDeletes := true }

/-- A post whose new title is not stored yet. -/
def renamedPost : Record :=
  (timedPosts.hydrate (.ofList [("id", .int 1), ("title", .text "a")])).set "title" (.text "b")

/-- The renamed post after calls that set what they set. -/
def waitingPost : Record :=
  (renamedPost.set "updated_at" (.timestamp default)).set "deleted_at" .null

def waitingCalls : List Attempt :=
  [.save default, .delete default, .forceDelete, .restore default, .refresh]

theorem failAll_waitingCalls : Attempt.failAll timedPosts
    (.answering (.error (.adapter "gone"))) waitingCalls (renamedPost, 0) =
      some (waitingPost, 5) := rfl

/-- A renamed post stays renamed while five calls fail, and is saved when replies come again. -/
theorem failures_keep_changes_renamed :
    let gone := Connection.answering (.error (.adapter "gone"))
    let back := Connection.answering (.ok (.affected 1))
    Attempt.failAll timedPosts gone waitingCalls (renamedPost, 0) = some (waitingPost, 5) ∧
      ("title", .text "b") ∈ waitingPost.dirty.entries ∧
      Change.kept ((timedPosts.save back default waitingPost).run 5) =
        some (waitingPost.markClean, 6) ∧
      ∃ rowKey values, timedPosts.Writes back rowKey values 5 6 ∧
        ("title", .text "b") ∈ values := by
  intro gone back
  have hsave : Change.kept ((timedPosts.save back default waitingPost).run 5) =
      some (waitingPost.markClean, 6) := rfl
  have hpending : ("title", .text "b") ∈ renamedPost.dirty.entries := List.mem_singleton.2 rfl
  obtain ⟨hdirty, hsent⟩ :=
    (failures_keep_changes failAll_waitingCalls).2.2 "title" (.text "b") hpending (by decide)
  exact ⟨failAll_waitingCalls, hdirty, hsave, hsent rfl Nat back default 5 6 _ hsave⟩

end ActiveRow
