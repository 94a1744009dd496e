import ActiveRow.Proofs.Cast
import ActiveRow.Proofs.Model.Failure
import ActiveRow.Proofs.Visibility

/-!
# Casts of a model

A model may list several casts for a column. Attributes are read and written through the first of
them, and exported through all of them, one after the other. A written value has gone through the
first cast already when it is read or exported.

* `Model.get?_object`: an exported value went through every cast that its column has.
* `export_agrees_iff`: an export agrees with what is read when the later casts change nothing.
* `reads_back_iff`: what is written is read back, unless the cast decodes it another time.
-/

namespace ActiveRow

/-! ### The casts of a column -/

namespace Model

variable (m : Model)

/-- The casts that a model lists for a column, in order. -/
def castsOf (column : String) : List Cast :=
  (m.casts.filter fun e => e.1 = column).map Prod.snd

theorem castOf?_eq_head? (column : String) : m.castOf? column = (m.castsOf column).head? := by
  unfold castOf? castsOf
  induction m.casts with
  | nil => rfl
  | cons e casts ih =>
    obtain ⟨name, c⟩ := e
    by_cases hname : name = column
    · simp [Pairs.get?, hname]
    · simpa [Pairs.get?, hname] using ih

/-- A column holds values as its first cast gives them. -/
theorem castValue_eq (column : String) (v : Value) :
    m.castValue column v = Cast.applyAll ((m.castsOf column).take 1) v := by
  rw [castValue, castOf?_eq_head?]
  cases m.castsOf column <;> rfl

end Model

/-! ### What is exported -/

theorem Keyed.get?_modify {α : Type} (m : Keyed α) (key k : String) (f : α → α) :
    (m.modify key f).get? k = if key = k then (m.get? k).map f else m.get? k := by
  unfold modify
  by_cases hk : key = k
  · subst hk
    cases hv : m.get? key with
    | none => simp [hv]
    | some v => simp [get?_insert]
  · cases m.get? key with
    | none => simp [hk]
    | some v => simp [get?_insert, hk]

/-- Under a name that is shown and no relation has, the attribute is shown. -/
theorem Record.get?_object {r : Record} {key : String} (hshown : r.showsName key = true)
    (hrelation : key ∉ Pairs.keys r.relations) : r.object.get? key = r.get? key := by
  have hnone :
      (Keyed.ofList (r.shownRelations.map fun e => (e.1, e.2.nested))).get? key = none := by
    rw [Keyed.get?_ofList_eq_none_iff, Pairs.keys, List.map_map]
    exact fun hk => hrelation ((List.filter_sublist.map Prod.fst).subset hk)
  rw [object_eq, Keyed.get?_insertMany, hnone, Option.none_or, Keyed.get?_filter, if_pos hshown]
  rfl

/-- **An exported value** went through every cast that its column has. -/
theorem Model.get?_object (m : Model) (r : Record) (key : String) :
    (m.object r).get? key = (r.object.get? key).map (Cast.applyAll (m.castsOf key)) := by
  -- on the casts, for whatever the casts before them have made of the object
  have hcasts : ∀ (casts : List (String × Cast)) (o : Attributes),
      (casts.foldl (fun o c => o.modify c.1 c.2.apply) o).get? key =
        (o.get? key).map
          (Cast.applyAll ((casts.filter fun e => e.1 = key).map Prod.snd)) := by
    intro casts
    induction casts with
    | nil => exact fun o => (congrFun Option.map_id _).symm
    | cons e casts ih =>
      intro o
      obtain ⟨column, c⟩ := e
      rw [List.foldl_cons, ih, Keyed.get?_modify]
      by_cases hcolumn : column = key
      · simp only [hcolumn, if_true, Option.map_map, List.filter_cons, decide_true, List.map_cons]
        rfl
      · simp [hcolumn]
  exact hcasts m.casts r.object

/-- **Reading and exporting.** An attribute that is shown under its name is read through the first
cast that its column has and exported through all of them, one after the other. The two agree
exactly when the later casts leave alone what is read: with one cast or none always, and with one
cast that is listed several times too, if it does not read documents. -/
theorem export_agrees_iff {m : Model} {r : Record} {key : String}
    (hshown : r.showsName key = true) (hrelation : key ∉ Pairs.keys r.relations) :
    m.get? r key = (r.get? key).map (Cast.applyAll ((m.castsOf key).take 1)) ∧
    (m.object r).get? key = (r.get? key).map (Cast.applyAll (m.castsOf key)) ∧
    ((m.object r).get? key = m.get? r key ↔
      ∀ v, m.get? r key = some v → Cast.applyAll ((m.castsOf key).drop 1) v = v) ∧
    ((m.castsOf key).length ≤ 1 → (m.object r).get? key = m.get? r key) ∧
    ∀ c, c ≠ .json → (∀ d ∈ m.castsOf key, d = c) → (m.object r).get? key = m.get? r key := by
  have hread : m.get? r key = (r.get? key).map (Cast.applyAll ((m.castsOf key).take 1)) := by
    rw [Model.get?, funext (m.castValue_eq key)]
  have hexport : (m.object r).get? key = (r.get? key).map (Cast.applyAll (m.castsOf key)) := by
    rw [m.get?_object, Record.get?_object hshown hrelation]
  -- an export goes on with what was read
  have hlater : (m.object r).get? key =
      (m.get? r key).map (Cast.applyAll ((m.castsOf key).drop 1)) := by
    rw [hexport, hread, Option.map_map]
    exact congrArg (fun f => (r.get? key).map f)
      (funext fun v => (Cast.applyAll_drop 1 (m.castsOf key) v).symm)
  have hagree : (m.object r).get? key = m.get? r key ↔
      ∀ v, m.get? r key = some v → Cast.applyAll ((m.castsOf key).drop 1) v = v := by
    rw [hlater]
    cases m.get? r key <;> simp
  refine ⟨hread, hexport, hagree, fun hlength => hagree.2 fun v _ => ?_,
    fun c hc hall => hagree.2 fun v hv => ?_⟩
  · rw [List.drop_eq_nil_of_le hlength]
    rfl
  · cases hcasts : m.castsOf key with
    | nil => rfl
    | cons d casts =>
      rw [hcasts] at hread hall
      obtain ⟨hd, hcasts⟩ := List.forall_mem_cons.1 hall
      subst hd
      obtain ⟨w, -, rfl⟩ := Option.map_eq_some_iff.1 (hread.symm.trans hv)
      exact Cast.applyAll_eq_self (Cast.apply_apply hc w) hcasts

/-- Events whose count is cast twice. -/
def countedEvents : Model :=
  { table := "events", primaryKey := "uid", casts := [("i", .integer), ("i", .string)] }

def countedEvent : Record :=
  countedEvents.hydrate (.ofList [("uid", .text "a"), ("i", .text "7")])

/-- The count is read through the first cast and exported through both. -/
theorem export_agrees_iff_counted :
    countedEvent.showsName "i" = true ∧ "i" ∉ Pairs.keys countedEvent.relations ∧
      ((countedEvents.object countedEvent).get? "i" = countedEvents.get? countedEvent "i" ↔
        ∀ v, countedEvents.get? countedEvent "i" = some v →
          Cast.applyAll [.string] v = v) := by
  have hshown : countedEvent.showsName "i" = true := by decide
  have hrelation : "i" ∉ Pairs.keys countedEvent.relations := List.not_mem_nil
  exact ⟨hshown, hrelation, (export_agrees_iff hshown hrelation).2.2.1⟩

/-- **A column that is cast twice**: the count is read as a number and exported as a text. -/
theorem exported_otherwise_than_read :
    countedEvents.get? countedEvent "i" = some (.int 7) ∧
      (countedEvents.object countedEvent).get? "i" = some (.text "7") := by
  exact ⟨by rfl, by rfl⟩

/-! ### What a save of a new record sends -/

namespace Model

variable {σ : Type} {m : Model} {c : Connection σ} {now : Timestamp} {r : Record}

/-- The statement that inserts a row of these values was answered. -/
def Inserts (m : Model) (c : Connection σ) (values : List (String × Value)) (st : σ) : Prop :=
  ∃ statement, (Query.on m.table).insertStatement c.dialect ((assignments values).map Prod.fst)
      [(assignments values).map Prod.snd] = .ok statement ∧
    ((∃ n st', (c.insert statement).from_ st = (.ok n, st')) ∨
      ∃ key st', (c.insertedKey statement m.primaryKey).from_ st = (.ok key, st'))

/-- Only what is missing or null is set by default. -/
theorem get?_setDefault {column key : String} {v w : Value} (hv : r.get? column = some v)
    (h : v.isNull = false ∨ column ≠ key) : (setDefault key w r).get? column = some v := by
  unfold setDefault
  split
  · rename_i hmissing
    have hne : key ≠ column := by
      rintro rfl
      rw [hv] at hmissing
      obtain hnull | hne := h
      · exact Bool.false_ne_true (hnull.symm.trans hmissing)
      · exact hne rfl
    rw [Record.get?, Record.set, Keyed.get?_insert, if_neg hne]
    exact hv
  · exact hv

theorem get?_stamped {column : String} {v : Value} (hv : r.get? column = some v)
    (h : v.isNull = false ∨ column ∉ [m.createdAt, m.updatedAt]) :
    (m.stamped now r).get? column = some v := by
  have hcolumn : ∀ key ∈ [m.createdAt, m.updatedAt], v.isNull = false ∨ column ≠ key :=
    fun key hkey => h.imp_right fun hnot heq => hnot (heq ▸ hkey)
  unfold stamped
  split
  · exact get?_setDefault (get?_setDefault hv (hcolumn _ (by simp))) (hcolumn _ (by simp))
  · exact hv

/-- A key that is set is known when the record is inserted. -/
theorem knownKey?_stamped {v : Value} (hkey : r.primaryKey = m.primaryKey)
    (hv : (m.stamped now r).get? m.primaryKey = some v) (hnull : v.isNull = false) :
    (m.stamped now r).knownKey? = some v := by
  have hsame : (m.stamped now r).primaryKey = m.primaryKey := by
    rw [← (m.changesOnly_stamped now r).frame]
    exact hkey
  rw [Record.knownKey?, Record.key?, hsame, hv]
  simp [hnull]

/-- **What a save of a new record sends.** When it gives a result, it inserted a row with every
attribute that no default takes the place of. -/
theorem inserts_of_save {r' : Record} {st st' : σ} (hr : r.stored = false)
    (hkey : r.primaryKey = m.primaryKey)
    (h : Change.kept ((m.save c now r).run st) = some (r', st')) {column : String} {v : Value}
    (hv : r.get? column = some v)
    (hset : v.isNull = false ∨ column ∉ [m.primaryKey, m.createdAt, m.updatedAt]) :
    ∃ values, m.Inserts c values st ∧ (column, v) ∈ values := by
  have hstamped : (m.stamped now r).get? column = some v :=
    get?_stamped hv (hset.imp_right fun hnot hmem => hnot (.tail _ hmem))
  have hmem : (column, v) ∈ (m.stamped now r).attributes.entries := Pairs.mem_of_get? hstamped
  rw [save, hr, if_neg Bool.false_ne_true, insert] at h
  obtain ⟨inserted, hinserted, -⟩ := Change.kept_ofAction h
  unfold insertRow at hinserted
  split at hinserted
  · obtain ⟨_, _, hrow, -⟩ := Action.from_bind_eq_ok hinserted
    obtain ⟨_, _, hsent, -⟩ := Action.from_bind_eq_ok hrow
    obtain ⟨statement, hs, hn⟩ := Action.from_ofExcept_bind_eq_ok hsent
    exact ⟨_, ⟨statement, hs, .inl ⟨_, _, hn⟩⟩, hmem⟩
  · rename_i hunknown
    -- the key is the one column that is left out, and then it is not set
    have hne : column ≠ m.primaryKey := by
      rintro rfl
      obtain hnull | hnot := hset
      · exact hunknown (Option.isSome_iff_exists.2 ⟨v, knownKey?_stamped hkey hstamped hnull⟩)
      · exact hnot List.mem_cons_self
    obtain ⟨_, _, hsent, -⟩ := Action.from_bind_eq_ok hinserted
    obtain ⟨statement, hs, hn⟩ := Action.from_ofExcept_bind_eq_ok hsent
    exact ⟨_, ⟨statement, hs, .inr ⟨_, _, hn⟩⟩, List.mem_filter.2 ⟨hmem, decide_eq_true hne⟩⟩

end Model

/-! ### What is written is read back -/

theorem Record.get?_set (r : Record) (key : String) (v : Value) :
    (r.set key v).get? key = some v := by
  rw [get?, set, Keyed.get?_insert, if_pos rfl]

/-- **What is written is read back.** A column with a cast stores what the cast gives, and a save
that gives a result sends that, if it is a pending change, or for a new record if no default takes
its place. Reading it applies the cast again and exporting it every cast of the column. Both give
what is stored, if all these casts are one, except for the cast to documents and the document of a
text that is a document itself: what was read of it once is then read again. -/
theorem reads_back_iff {m : Model} {column : String} {c : Cast}
    (hcast : m.castOf? column = some c) (r : Record) (v : Value) :
    let stored := c.apply v
    let written := m.set r column v
    written.get? column = some stored ∧
    m.get? written column = some (c.apply stored) ∧
    (m.get? written column = some stored ↔ (c = .json → v.isNestedDocument = false)) ∧
    (r.showsName column = true → column ∉ Pairs.keys r.relations →
      (m.object written).get? column = some (Cast.applyAll (m.castsOf column) stored) ∧
      ((∀ d ∈ m.castsOf column, d = c) →
        ((m.object written).get? column = some stored ↔
          (c = .json → v.isNestedDocument = false)))) ∧
    ∀ (σ : Type) (conn : Connection σ) (now : Timestamp) (st st' : σ) (saved : Record),
      Change.kept ((m.save conn now written).run st) = some (saved, st') →
      (r.stored = true → written.isDirtyKey column = true →
        ∃ rowKey values, m.Writes conn rowKey values st st' ∧ (column, stored) ∈ values) ∧
      (r.stored = false → r.primaryKey = m.primaryKey →
        stored.isNull = false ∨ column ∉ [m.primaryKey, m.createdAt, m.updatedAt] →
        ∃ values, m.Inserts conn values st ∧ (column, stored) ∈ values) := by
  intro stored written
  have hvalue : ∀ w, m.castValue column w = c.apply w := fun w => by rw [Model.castValue, hcast]
  have hstored : written.get? column = some stored := by
    change (m.set r column v).get? column = some (c.apply v)
    rw [Model.set, hvalue, Record.get?_set]
  have hread : m.get? written column = some (c.apply stored) := by
    rw [Model.get?, hstored, Option.map_some, hvalue]
  refine ⟨hstored, hread, ?_, fun hshown hrelation => ?_,
    fun σ conn now st st' saved hsave => ⟨fun hr hdirty => ?_, fun hr hkey hset => ?_⟩⟩
  · rw [hread, Option.some_inj]
    exact c.apply_apply_iff v
  · have hne : m.castsOf column ≠ [] := by
      intro hnil
      rw [m.castOf?_eq_head?, hnil] at hcast
      cases hcast
    have hobject : written.object.get? column = written.get? column :=
      Record.get?_object hshown hrelation
    have hexport : (m.object written).get? column =
        some (Cast.applyAll (m.castsOf column) stored) := by
      rw [m.get?_object, hobject, hstored, Option.map_some]
    refine ⟨hexport, fun hall => ?_⟩
    rw [hexport, Option.some_inj]
    exact Cast.applyAll_apply_iff hne hall v
  · have hmem : (column, stored) ∈ written.attributes.entries := Pairs.mem_of_get? hstored
    have hpending : (column, stored) ∈ written.dirty.entries := List.mem_filter.2 ⟨hmem, hdirty⟩
    have hrow : written.stored = true := hr
    exact Model.writes_of_save hrow hsave hpending
  · have hnew : written.stored = false := hr
    have hname : written.primaryKey = m.primaryKey := hkey
    exact Model.inserts_of_save hnew hname hsave hstored hset

/-- Events with a document. -/
def documentedEvents : Model :=
  { table := "events", primaryKey := "uid", casts := [("j", .json)] }

def documentedEvent : Record :=
  documentedEvents.hydrate (.ofList [("uid", .text "a"), ("j", .null)])

/-- A document that is a list is stored as the list, and read back so. -/
theorem reads_back_iff_documented :
    let v := Value.text "[\"1\"]"
    documentedEvents.castOf? "j" = some .json ∧ v.isNestedDocument = false ∧
      documentedEvents.get? (documentedEvents.set documentedEvent "j" v) "j" =
        some (Cast.json.apply v) ∧
      Cast.json.apply v = .array [.text "1"] := by
  intro v
  have hcast : documentedEvents.castOf? "j" = some .json := rfl
  have hnested : v.isNestedDocument = false := by rfl
  obtain ⟨-, -, hread, -⟩ := reads_back_iff hcast documentedEvent v
  exact ⟨hcast, hnested, hread.2 fun _ => hnested, by rfl⟩

/-- **A document that is a text of a document** is stored as that text, and read as another value:
the text of a truth value as the truth value. -/
theorem read_otherwise_than_written :
    let written := documentedEvents.set documentedEvent "j" (.text "\"true\"")
    documentedEvents.castOf? "j" = some .json ∧ written.get? "j" = some (.text "true") ∧
      documentedEvents.get? written "j" = some (.bool true) ∧
        (documentedEvents.object written).get? "j" = some (.bool true) := by
  have hfirst : Cast.json.apply (.text "\"true\"") = .text "true" := by rfl
  have hagain : Cast.json.apply (Cast.json.apply (.text "\"true\"")) = .bool true := by rfl
  exact ⟨rfl, congrArg some hfirst, congrArg some hagain, congrArg some hagain⟩

end ActiveRow
