import ActiveRow.Proofs.Model.Baseline
import ActiveRow.Proofs.Model.Saving

/-!
# Loaded records

A record that was just loaded or stored has its attributes for its baseline. An attribute is clean
when it equals its baseline, so an attribute is clean then when it equals itself, which all do that
have no NaN. One that has a NaN is a pending change as soon as it is loaded, and after every save.

* `Loaded.isDirtyKey_eq`: the pending changes of a loaded record.
* `loaded_clean_iff`: when there are none, and what a save does then and otherwise.
-/

namespace ActiveRow

/-- A record of a model that was just fetched or saved. -/
inductive Settled (m : Model) : Record → Prop
  | fetched (row : Row) : Settled m (m.hydrate row)
  | saved {σ : Type} {c : Connection σ} {now : Timestamp} {r r' : Record} {st st' : σ}
      (h : Change.kept ((m.save c now r).run st) = some (r', st')) : Settled m r'

/-- A record of a model whose attributes were just loaded or taken for stored. -/
inductive Loaded (m : Model) : Record → Prop
  | settled {r : Record} (h : Settled m r) : Loaded m r
  | hydrate (r : Record) (row : Row) : Loaded m (r.hydrate row)
  | replaceAttributes (r : Record) (row : Row) : Loaded m (r.replaceAttributes row)
  | markClean (r : Record) : Loaded m r.markClean
  | refreshed {σ : Type} {c : Connection σ} {r r' : Record} {st st' : σ}
      (h : Change.kept ((m.refresh c r).run st) = some (r', st')) : Loaded m r'

/-! ### What stands behind a save -/

namespace Model

variable {σ : Type} {m : Model} {c : Connection σ} {now : Timestamp} {r r' : Record} {st st' : σ}

/-- **What a save leaves.** A record that has a row, with its attributes for its baseline, or as it
was when it had no pending change. -/
theorem kept_save (h : Change.kept ((m.save c now r).run st) = some (r', st')) :
    r'.stored = true ∧ (r'.baseline = r'.attributes ∨ r'.isDirty = false) := by
  by_cases hr : r.stored = true
  · obtain ⟨hclean, rfl, -⟩ | ⟨key, -, -, rfl⟩ := update_eq (save_eq hr h)
    · exact ⟨hr, .inr hclean⟩
    · have hstored : (m.touched now r).stored = true := by
        rw [← (m.changesOnly_touched now r).frame]
        exact hr
      exact ⟨hstored, .inl rfl⟩
  · rw [save, if_neg hr, insert] at h
    obtain ⟨inserted, -, rfl⟩ := Change.kept_ofAction h
    exact ⟨rfl, .inl rfl⟩

end Model

theorem Settled.stored {m : Model} {r : Record} (h : Settled m r) : r.stored = true := by
  cases h with
  | fetched row => rfl
  | saved h => exact (Model.kept_save h).1

/-- An attribute that has itself for its baseline is pending when it does not equal itself. -/
theorem Record.isDirtyKey_eq_not_same {r : Record} (h : r.baseline = r.attributes) {key : String}
    {v : Value} (hv : r.get? key = some v) : r.isDirtyKey key = !v.same v := by
  have hv : r.attributes.get? key = some v := hv
  rw [isDirtyKey, h, hv]

/-- No attribute of a clean record is a pending change. -/
theorem Record.isDirtyKey_eq_false {r : Record} (h : r.isDirty = false) {key : String} {v : Value}
    (hv : r.get? key = some v) : r.isDirtyKey key = false := by
  rw [isDirty, List.any_eq_false] at h
  simpa using h (key, v) (Pairs.mem_of_get? hv)

namespace Loaded

variable {m : Model} {r : Record}

theorem baseline_eq (h : Loaded m r) : r.baseline = r.attributes ∨ r.isDirty = false := by
  cases h with
  | settled h =>
    cases h with
    | fetched row => exact .inl rfl
    | saved h => exact (Model.kept_save h).2
  | hydrate r row => exact .inl rfl
  | replaceAttributes r row => exact .inl rfl
  | markClean r => exact .inl rfl
  | refreshed h =>
    obtain ⟨_, row, -, -, rfl⟩ := Model.refresh_eq h
    exact .inl rfl

/-- **A pending change of a loaded record** is an attribute that has a NaN. -/
theorem isDirtyKey_eq (h : Loaded m r) (hformed : Formed r.attributes) {key : String} {v : Value}
    (hv : r.get? key = some v) : r.isDirtyKey key = v.hasNaN := by
  obtain hbaseline | hclean := h.baseline_eq
  · have hself := Value.same_self_iff (hformed key v hv)
    rw [Record.isDirtyKey_eq_not_same hbaseline hv, Bool.eq_iff_iff, Bool.not_eq_true',
      ← Bool.not_eq_true, hself, Bool.not_eq_false]
  · -- what a save has left alone equals its baseline, and has no NaN then
    have hkey := Record.isDirtyKey_eq_false hclean hv
    obtain ⟨b, -, hsame⟩ := (clean_iff hv).1 hkey
    rw [hkey, Value.hasNaN_of_same hsame]

theorem dirty_entries (h : Loaded m r) (hformed : Formed r.attributes) :
    r.dirty.entries = r.attributes.entries.filter fun e => e.2.hasNaN :=
  List.filter_congr fun _ he => h.isDirtyKey_eq hformed (get?_of_mem_entries he)

theorem isDirty_eq_false_iff (h : Loaded m r) (hformed : Formed r.attributes) :
    r.isDirty = false ↔ ∀ key v, r.get? key = some v → v.hasNaN = false := by
  constructor
  · intro hclean key v hv
    rw [← h.isDirtyKey_eq hformed hv, Record.isDirtyKey_eq_false hclean hv]
  · intro hnone
    rw [Record.isDirty, List.any_eq_false]
    intro e he
    have hv : r.get? e.1 = some e.2 := get?_of_mem_entries he
    rw [h.isDirtyKey_eq hformed hv, hnone e.1 e.2 hv]
    exact Bool.false_ne_true

/-- A save of what differs from itself leaves it pending. -/
theorem isDirty_saved (h : Loaded m r) (hformed : Formed r.attributes) (hdirty : r.isDirty = true)
    (now : Timestamp) : (m.touched now r).markClean.isDirty = true := by
  obtain ⟨⟨key, v⟩, hpending⟩ := List.exists_mem_of_ne_nil _ (r.isDirty_iff.1 hdirty)
  have hnan : v.hasNaN = true := by
    have hfiltered := hpending
    rw [h.dirty_entries hformed] at hfiltered
    exact (List.mem_filter.1 hfiltered).2
  have hmem : (key, v) ∈ (m.touched now r).attributes.entries :=
    List.mem_of_mem_filter (Model.mem_dirty_touched now hpending)
  have hv : (m.touched now r).markClean.get? key = some v := get?_of_mem_entries hmem
  have hkey : (m.touched now r).markClean.isDirtyKey key = !v.same v :=
    Record.isDirtyKey_eq_not_same rfl hv
  have hself : ¬v.same v = true := fun hsame =>
    Bool.false_ne_true ((Value.hasNaN_of_same hsame).symm.trans hnan)
  rw [Record.isDirty, List.any_eq_true]
  exact ⟨(key, v), hmem, by simp [hkey, hself]⟩

end Loaded

/-- **Loaded means clean**, but for NaNs. The pending changes of a loaded record, whose objects
repeat no name, are the attributes that have a NaN, at any depth. Without one there are none, and
saving the record, which has a row when it was just fetched or saved, gives it back and sends
nothing, over any connection. With one, every save sends an update, and the record has pending
changes again. -/
theorem loaded_clean_iff {m : Model} {r : Record} (h : Loaded m r)
    (hformed : Formed r.attributes) :
    r.dirty.entries = (r.attributes.entries.filter fun e => e.2.hasNaN) ∧
    (r.isDirty = false ↔ ∀ key v, r.get? key = some v → v.hasNaN = false) ∧
    (Settled m r → r.stored = true) ∧
    (r.stored = true → r.isDirty = false → ∀ (σ : Type) (c : Connection σ) (now : Timestamp)
      (st : σ), (m.save c now r).run st = (⟨r, .ok ()⟩, st)) ∧
    (r.stored = true → r.isDirty = true → ∀ (υ : Type) (driver name : String) (d : Dialect)
      (scope : Except Fault (Option String)) (now : Timestamp) (st : Script υ) (key : Value),
      (m.touched now r).knownKey? = some key →
      let after := (m.save (Script.connection driver d name scope) now r).run st
      SentChanges m name d r key (m.timed now r) st after ∧
        ∀ out, st.reply name = .ok out →
          Loaded m after.1.record ∧ after.1.record.isDirty = true) := by
  refine ⟨h.dirty_entries hformed, h.isDirty_eq_false_iff hformed, Settled.stored,
    fun hr hclean σ c now st => ?_,
    fun hr hdirty υ driver name d scope now st key hkey => ?_⟩
  · rw [Model.save, if_pos hr, Model.update_eq_pure hclean]
    rfl
  · intro after
    have hsave : after =
        (m.update (Script.connection driver d name scope : Connection (Script υ)) now r).run st :=
      congrArg (fun a => StateT.run a st) (if_pos hr)
    have hsent : SentChanges m name d r key (m.timed now r) st after :=
      hsave ▸ sentChanges_update hdirty hkey st
    refine ⟨hsent, fun out hreply => ?_⟩
    have hrecord : after.1.record = (m.touched now r).markClean := by
      rw [hsent.stored out hreply, m.touched_eq]
      rfl
    rw [hrecord]
    exact ⟨.markClean _, h.isDirty_saved hformed hdirty now⟩

/-- Users with a score. -/
def scoredUsers : Model := { table := "users" }

/-- A user as fetched, with this score. -/
def scoredUser (score : Value) : Record :=
  scoredUsers.hydrate (.ofList [("id", .int 1), ("score", score)])

/-- A connection to the database of the users. -/
def usersConnection : Connection (Script Unit) :=
  Script.connection "postgres" .postgres "main" (.ok none)

/-- A user whose scores have no NaN is clean when fetched, and a save sends nothing. -/
theorem loaded_clean_iff_scored :
    let r := scoredUser (.array [.float .zero])
    Loaded scoredUsers r ∧ Formed r.attributes ∧ r.isDirty = false ∧
      ∀ st, (scoredUsers.save usersConnection default r).run st = (⟨r, .ok ()⟩, st) := by
  intro r
  have hloaded : Loaded scoredUsers r := .settled (.fetched _)
  have hformed : Formed r.attributes := by
    intro key v hv
    have hmem := Keyed.mem_of_get?_ofList hv
    simp only [List.mem_cons, List.not_mem_nil, or_false, Prod.mk.injEq] at hmem
    rcases hmem with ⟨-, rfl⟩ | ⟨-, rfl⟩
    · trivial
    · exact ⟨trivial, trivial⟩
  have hclean : r.isDirty = false := by rfl
  obtain ⟨-, -, hstored, hsaved, -⟩ := loaded_clean_iff hloaded hformed
  exact ⟨hloaded, hformed, hclean, hsaved (hstored (.fetched _)) hclean _ usersConnection default⟩

/-- **A user whose score is a NaN** has a pending change when fetched. A save sends it, and leaves
it pending. -/
theorem loaded_not_clean :
    let nan : Value := .float ⟨0x7ff8000000000000⟩
    let r := scoredUser nan
    let after := (scoredUsers.save usersConnection default r).run (Script.start ())
    r.isDirty = true ∧ r.dirty.entries = [("score", nan)] ∧
      after.2.log =
        [⟨"main", "UPDATE users SET score = $1 WHERE id = $2", [nan, .int 1]⟩] ∧
      after.1.record.isDirty = true := by
  intro nan r after
  have hdirty : r.isDirty = true := by rfl
  have hsent : SentChanges scoredUsers "main" .postgres r (.int 1)
      (scoredUsers.timed default r) (Script.start ()) after := sentChanges_update hdirty rfl _
  have hchanges : (changesFrom r.baseline (scoredUsers.timed default r)).entries =
      [("score", nan)] := by rfl
  have hsql : (scoredUsers.rowUpdate .postgres (.int 1) [("score", nan)]).sql =
      "UPDATE users SET score = $1 WHERE id = $2" := by decide
  refine ⟨hdirty, by rfl, ?_, ?_⟩
  · rw [hsent.sent, hchanges, Script.request, hsql]
    rfl
  · rw [hsent.stored (.affected 0) rfl]
    rfl

end ActiveRow
