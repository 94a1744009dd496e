import ActiveRow.Proofs.Model.Saving

/-!
# Restores that fail

Restoring takes the mark of deletion off a record before it is saved. When the save fails, the mark
is not put back: the record counts as restored, while its row is still marked. The mark is then a
pending change, which the next save sends.

* `Attempt.save_of_restore`: a failed restore is a failed save of the record without its mark.
* `attributes_unmarked_iff`: when this leaves the attributes as they are.
* `restore_failed`: the record after a failed restore.
-/

namespace ActiveRow

theorem Pairs.put_eq_self {α : Type} {key : String} {v : α} {l : List (String × α)}
    (h : get? key l = some v) : put key v l = l := by
  induction l with
  | nil => cases h
  | cons e l ih =>
    obtain ⟨k, w⟩ := e
    by_cases hk : k = key
    · have hw : w = v := by simpa [get?, hk] using h
      simp [put, hk, hw]
    · have hrest : get? key l = some v := by simpa [get?, hk] using h
      simp [put, hk, ih hrest]

/-- Writing a value changes nothing exactly when it is there. -/
theorem Keyed.insert_eq_self_iff {α : Type} (a : Keyed α) (key : String) (v : α) :
    a.insert key v = a ↔ a.get? key = some v := by
  constructor
  · intro h
    rw [← h, get?_insert]
    exact if_pos rfl
  · intro h
    exact Keyed.ext (Pairs.put_eq_self h)

/-- Another attribute is as dirty as before. -/
theorem Record.isDirtyKey_set {r : Record} {key column : String} (hne : key ≠ column) (v : Value) :
    (r.set key v).isDirtyKey column = r.isDirtyKey column := by
  have hget : (r.set key v).attributes.get? column = r.attributes.get? column := by
    rw [set, Keyed.get?_insert]
    exact if_neg hne
  rw [isDirtyKey, isDirtyKey, hget]
  rfl

namespace Model

variable {m : Model} (now : Timestamp) {r : Record}

/-- The mark of deletion is off, also with the time of change. -/
theorem get?_unmarked (hne : m.updatedAt ≠ m.deletedAt) :
    (m.timed now (r.set m.deletedAt .null)).get? m.deletedAt = some .null := by
  have hoff : (r.set m.deletedAt .null).attributes.get? m.deletedAt = some .null := by
    rw [Record.set, Keyed.get?_insert]
    exact if_pos rfl
  unfold timed
  split
  · rw [Keyed.get?_insert, if_neg hne]
    exact hoff
  · exact hoff

/-- **When taking the mark off changes nothing**: the mark is off already, and the time of change is
not taken or is the one that was there. -/
theorem attributes_unmarked_iff (hne : m.updatedAt ≠ m.deletedAt) :
    m.timed now (r.set m.deletedAt .null) = r.attributes ↔
      r.get? m.deletedAt = some .null ∧
        (m.timestamps = true → r.isDirtyKey m.updatedAt = false →
          r.get? m.updatedAt = some (.timestamp now)) := by
  have hdirty : (r.set m.deletedAt .null).isDirtyKey m.updatedAt = r.isDirtyKey m.updatedAt :=
    Record.isDirtyKey_set hne.symm .null
  have hmark : m.timed now (r.set m.deletedAt .null) = r.attributes →
      r.get? m.deletedAt = some .null := by
    intro h
    rw [Record.get?, ← h]
    exact get?_unmarked now hne
  rw [timed, hdirty] at hmark ⊢
  by_cases htime : m.timestamps = true ∧ r.isDirtyKey m.updatedAt = false
  · rw [if_pos htime] at hmark ⊢
    constructor
    · intro h
      refine ⟨hmark h, fun _ _ => ?_⟩
      rw [Record.get?, ← h, Keyed.get?_insert]
      exact if_pos rfl
    · rintro ⟨hoff, htaken⟩
      have hset : (r.set m.deletedAt .null).attributes = r.attributes :=
        (Keyed.insert_eq_self_iff ..).2 hoff
      rw [hset, Keyed.insert_eq_self_iff]
      exact htaken htime.1 htime.2
  · rw [if_neg htime] at hmark ⊢
    constructor
    · exact fun h => ⟨hmark h, fun htimes hclean => absurd ⟨htimes, hclean⟩ htime⟩
    · exact fun h => (Keyed.insert_eq_self_iff ..).2 h.1

end Model

/-- **The record after a failed restore** has its mark of deletion taken off, and the time of change
set, whatever made the restore fail. So it does not count as deleted, and its attributes are as
before exactly when there was no mark to take off and no new time to set. When its row has the mark,
taking it off is a pending change, which the next save that gives a result sends. -/
theorem restore_failed {σ : Type} {m : Model} {c : Connection σ} {now : Timestamp} {r r' : Record}
    {st st' : σ} (h : Attempt.left ((m.restore c now r).run st) = some (r', st')) :
    m.softDeletes = true ∧ r.stored = true ∧
    r' = m.touched now (r.set m.deletedAt .null) ∧
    (m.updatedAt ≠ m.deletedAt →
      m.trashed r' = false ∧
      (r'.attributes = r.attributes ↔
        r.get? m.deletedAt = some .null ∧
          (m.timestamps = true → r.isDirtyKey m.updatedAt = false →
            r.get? m.updatedAt = some (.timestamp now))) ∧
      ∀ mark, r.baseline.get? m.deletedAt = some mark → mark.isNull = false →
        ∀ (τ : Type) (c' : Connection τ) (later : Timestamp) (s s' : τ) (saved : Record),
          Change.kept ((m.save c' later r').run s) = some (saved, s') →
            ∃ rowKey values, m.Writes c' rowKey values s s' ∧ (m.deletedAt, .null) ∈ values) := by
  obtain ⟨hmarks, hstored, hsave⟩ := Attempt.save_of_restore h
  have hupdate : m.save c now (r.set m.deletedAt .null) =
      m.update c now (r.set m.deletedAt .null) := if_pos hstored
  rw [hupdate] at hsave
  have hleft : r' = m.touched now (r.set m.deletedAt .null) := Attempt.eq_touched_of_update hsave
  have hattributes : r'.attributes = m.timed now (r.set m.deletedAt .null) := by
    rw [hleft, m.touched_eq]
  refine ⟨hmarks, hstored, hleft, fun hne => ?_⟩
  have hoff : r'.get? m.deletedAt = some .null := by
    rw [Record.get?, hattributes]
    exact Model.get?_unmarked now hne
  refine ⟨?_, ?_, fun mark hmark hnull τ c' later s s' saved hlater => ?_⟩
  · rw [Model.trashed, hoff]
    exact Bool.and_false _
  · rw [hattributes]
    exact Model.attributes_unmarked_iff now hne
  · have hframe : r'.stored = true ∧ r'.baseline = r.baseline := by
      rw [hleft, m.touched_eq]
      exact ⟨hstored, rfl⟩
    have hpending : (m.deletedAt, .null) ∈ r'.dirty.entries := by
      refine List.mem_filter.2 ⟨Pairs.mem_of_get? hoff, ?_⟩
      have hget : r'.attributes.get? m.deletedAt = some .null := hoff
      rw [Record.isDirtyKey, hget, hframe.2, hmark]
      cases mark with
      | null => cases hnull
      | _ => rfl
    exact Model.writes_of_save hframe.1 hlater hpending

/-! ### A post that stays deleted -/

/-- A post whose row is marked as deleted. -/
def trashedPost : Record :=
  timedPosts.hydrate (.ofList [("id", .int 1), ("title", .text "a"),
    ("deleted_at", .timestamp default)])

/-- The trashed post after a restore that failed. -/
def unmarkedPost : Record :=
  (trashedPost.set "deleted_at" .null).set "updated_at" (.timestamp default)

theorem left_restore_trashedPost :
    Attempt.left ((timedPosts.restore (.answering (.error (.adapter "gone"))) default
      trashedPost).run 0) = some (unmarkedPost, 1) := rfl

/-- A trashed post is restored while nothing answers; a later save restores its row. -/
theorem restore_failed_trashedPost :
    let gone := Connection.answering (.error (.adapter "gone"))
    let back := Connection.answering (.ok (.affected 1))
    Attempt.left ((timedPosts.restore gone default trashedPost).run 0) = some (unmarkedPost, 1) ∧
      timedPosts.trashed unmarkedPost = false ∧
      ∃ rowKey values, timedPosts.Writes back rowKey values 1 2 ∧
        ("deleted_at", .null) ∈ values := by
  intro gone back
  obtain ⟨-, -, -, hafter⟩ := restore_failed left_restore_trashedPost
  obtain ⟨htrashed, -, hsent⟩ := hafter (by decide)
  exact ⟨left_restore_trashedPost, htrashed,
    hsent (.timestamp default) rfl rfl Nat back default 1 2 unmarkedPost.markClean rfl⟩

/-- The trashed post is no longer trashed, and its attributes are not what they were. -/
theorem unmarked_while_deleted :
    let restored := (timedPosts.restore (.answering (.error (.adapter "gone"))) default
      trashedPost).run 0
    timedPosts.trashed trashedPost = true ∧
      restored.1.result.isOk = false ∧
      timedPosts.trashed restored.1.record = false ∧
      restored.1.record.attributes ≠ trashedPost.attributes := by
  intro restored
  have hbefore : timedPosts.trashed trashedPost = true := rfl
  have hafter : timedPosts.trashed restored.1.record = false := rfl
  refine ⟨hbefore, rfl, hafter, fun hsame => ?_⟩
  rw [Model.trashed, Record.get?, hsame] at hafter
  exact Bool.noConfusion (hbefore.symm.trans hafter)

end ActiveRow
