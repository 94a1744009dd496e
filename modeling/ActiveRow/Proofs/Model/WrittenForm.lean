import ActiveRow.Proofs.Model.Addressing
import ActiveRow.Proofs.Model.Casting

/-!
# Attributes in the form of their casts

A new record gets its attributes through the casts of its model only, whether it is made of them,
filled with them or given them one by one. So an attribute is what the cast of its column makes of
the value that was written last, which is a value of the kind of the cast, or the written value
where the cast cannot convert it. Either is left alone when it is cast again, unless the cast is the
one to documents.

* `Cast.isTarget_apply_or`: what a cast gives is of its kind, or what it was given.
* `Edit.run_eq_fill`, `Model.get?_fill`: what a run of edits leaves under a name.
* `written_form`: what is stored, read, exported and sent of a record that was so written.
-/

namespace ActiveRow

/-! ### The kind of a cast -/

namespace Cast

/-- Whether a value is of the kind that a cast is to. Documents are of every kind. -/
def isTarget : Cast → Value → Bool
  | integer, .int _ => true
  | float, .float _ => true
  | boolean, .bool _ => true
  | string, .text _ => true
  | json, _ => true
  | datetime, .timestamp _ => true
  | _, _ => false

theorem isTarget_toInteger_or (v : Value) :
    integer.isTarget (toInteger v) = true ∨ toInteger v = v := by
  fun_cases toInteger v with
  | case1 b => exact .inl rfl
  | case2 x hx => exact .inl rfl
  | case3 x hx => exact .inr rfl
  | case4 s cs n hn => exact .inl rfl
  | case5 s cs hn x hx => exact .inl rfl
  | case6 s cs hn hx => exact .inr rfl
  | case7 => exact .inr rfl

theorem isTarget_toFloat_or (v : Value) : float.isTarget (toFloat v) = true ∨ toFloat v = v := by
  fun_cases toFloat v with
  | case1 x hx => exact .inl rfl
  | case2 hx => exact .inr rfl

theorem isTarget_toBoolean_or (v : Value) :
    boolean.isTarget (toBoolean v) = true ∨ toBoolean v = v := by
  fun_cases toBoolean v with
  | case1 n => exact .inl rfl
  | case2 x => exact .inl rfl
  | case3 s b hb => exact .inl rfl
  | case4 s hb => exact .inr rfl
  | case5 => exact .inr rfl

theorem isTarget_toText (v : Value) : string.isTarget (toText v) = true := by
  cases v <;> rfl

theorem isTarget_toDatetime_or (v : Value) :
    datetime.isTarget (toDatetime v) = true ∨ toDatetime v = v := by
  fun_cases toDatetime v with
  | case1 n t ht => exact .inl rfl
  | case2 n ht => exact .inr rfl
  | case3 s t ht => exact .inl rfl
  | case4 s ht => exact .inr rfl
  | case5 => exact .inr rfl

/-- **What a cast gives** is of its kind, or what it was given. -/
theorem isTarget_apply_or (c : Cast) (v : Value) :
    c.isTarget (c.apply v) = true ∨ c.apply v = v := by
  by_cases hv : v.isNull = true
  · exact .inr (if_pos hv)
  · rw [apply_of_not_isNull c hv]
    cases c with
    | integer => exact isTarget_toInteger_or v
    | float => exact isTarget_toFloat_or v
    | boolean => exact isTarget_toBoolean_or v
    | string => exact .inl (isTarget_toText v)
    | json => exact .inl rfl
    | datetime => exact isTarget_toDatetime_or v

end Cast

/-! ### What edits leave -/

namespace Model

variable (m : Model)

/-- **Of the values written to a column** the last one counts, as the column holds it. -/
theorem get?_fill (pairs : List (String × Value)) (key : String) : ∀ r : Record,
    (m.fill r pairs).get? key =
      (((Keyed.ofList pairs).get? key).map (m.castValue key)).or (r.get? key) := by
  induction pairs with
  | nil => exact fun _ => rfl
  | cons e pairs ih =>
    intro r
    have hset : (m.set r e.1 e.2).get? key =
        if e.1 = key then some (m.castValue key e.2) else r.get? key := by
      rw [Record.get?, Model.set, Record.set, Keyed.get?_insert]
      by_cases hkey : e.1 = key
      · rw [if_pos hkey, if_pos hkey, hkey]
      · rw [if_neg hkey, if_neg hkey]
        rfl
    have hfill : m.fill r (e :: pairs) = m.fill (m.set r e.1 e.2) pairs := rfl
    rw [hfill, ih, hset, Keyed.get?_ofList_cons]
    cases (Keyed.ofList pairs).get? key with
    | some v => rfl
    | none => by_cases hkey : e.1 = key <;> simp [hkey]

/-- A column without a cast to documents holds values that it leaves alone. -/
theorem castValue_castValue {key : String} (hkind : m.castOf? key ≠ some .json) (v : Value) :
    m.castValue key (m.castValue key v) = m.castValue key v := by
  unfold castValue
  cases hcast : m.castOf? key with
  | none => rfl
  | some c => exact Cast.apply_apply (fun hjson => hkind (hjson ▸ hcast)) v

variable {m}

/-- Where no column is named twice, a column has one cast at most. -/
theorem length_castsOf_le (hcasts : (Pairs.keys m.casts).Nodup) (key : String) :
    (m.castsOf key).length ≤ 1 := by
  have hcount : (m.castsOf key).length = (Pairs.keys m.casts).count key := by
    rw [castsOf, List.length_map, ← List.countP_eq_length_filter, List.count, Pairs.keys,
      List.countP_map]
    exact List.countP_congr fun e _ => by simp
  rw [hcount]
  exact List.nodup_iff_count.1 hcasts key

end Model

namespace Edit

/-- What an edit writes, in order. -/
def pairs : Edit → List (String × Value)
  | set key v => [(key, v)]
  | fill pairs => pairs

/-- A run of edits fills in all that they write. -/
theorem run_eq_fill (m : Model) (edits : List Edit) : ∀ r : Record,
    run m edits r = m.fill r (edits.flatMap pairs) := by
  induction edits with
  | nil => exact fun _ => rfl
  | cons e edits ih =>
    intro r
    have happly : e.apply m r = m.fill r e.pairs := by
      cases e <;> rfl
    have hrun : run m (e :: edits) r = run m edits (e.apply m r) := rfl
    rw [hrun, ih, happly, List.flatMap_cons, Model.fill, Model.fill, ← List.foldl_append]
    rfl

end Edit

/-! ### What is stored is in form -/

/-- **Attributes are in the form of their casts.** Take a model that lists no column twice among its
casts, none of which is to documents, and a new record that is made of attributes and then set and
filled any number of times. An attribute of it is what its column makes of the value written last
under its name. It is read as it is stored, and exported so where it is shown and no relation has
its name, whatever the record shows and relates to by then. Under a cast it is of the kind of the
cast, or it is what was written, and the cast leaves it alone. So a save that gives a result inserts
what is read, in every column that it fills in with no key or time of its own. -/
theorem written_form {m : Model} (hcasts : (Pairs.keys m.casts).Nodup)
    (hkinds : ∀ e ∈ m.casts, e.2 ≠ .json) (attributes : Attributes) (edits : List Edit) :
    let written := Keyed.ofList (attributes.entries ++ edits.flatMap Edit.pairs)
    let r := Edit.run m edits (m.make attributes)
    (∀ key, r.get? key = (written.get? key).map (m.castValue key)) ∧
    (∀ key, m.get? r key = r.get? key) ∧
    (∀ (r' : Record) (key : String), r'.attributes = r.attributes → r'.showsName key = true →
      key ∉ Pairs.keys r'.relations → (m.object r').get? key = r.get? key) ∧
    (∀ key c v, (key, c) ∈ m.casts → r.get? key = some v →
      c.apply v = v ∧ (c.isTarget v = true ∨ written.get? key = some v)) ∧
    ∀ (σ : Type) (conn : Connection σ) (now : Timestamp) (st st' : σ) (saved : Record),
      Change.kept ((m.save conn now r).run st) = some (saved, st') →
      ∀ key v, m.get? r key = some v →
        v.isNull = false ∨ key ∉ [m.primaryKey, m.createdAt, m.updatedAt] →
        ∃ values, m.Inserts conn values st ∧ (key, v) ∈ values := by
  intro written r
  have hget : ∀ key, r.get? key = (written.get? key).map (m.castValue key) := by
    intro key
    have hr : r = m.fill m.blank (attributes.entries ++ edits.flatMap Edit.pairs) := by
      rw [Model.fill, List.foldl_append]
      exact Edit.run_eq_fill m edits _
    rw [hr, m.get?_fill, show m.blank.get? key = none from rfl, Option.or_none]
  -- what a column holds is left alone when it is read
  have hheld : ∀ key v, r.get? key = some v → m.castValue key v = v := by
    intro key v hv
    rw [hget] at hv
    obtain ⟨w, -, rfl⟩ := Option.map_eq_some_iff.1 hv
    refine m.castValue_castValue (fun hjson => ?_) w
    exact hkinds _ (Pairs.mem_of_get? hjson) rfl
  have hread : ∀ key, m.get? r key = r.get? key := by
    intro key
    rw [Model.get?]
    cases hv : r.get? key with
    | none => rfl
    | some v => rw [Option.map_some, hheld key v hv]
  refine ⟨hget, hread, fun r' key hsame hshown hrelation => ?_, fun key c v hc hv => ?_,
    fun σ conn now st st' saved hsave key v hv hset => ?_⟩
  · have hexport := (export_agrees_iff (m := m) hshown hrelation).2.2.2.1
      (Model.length_castsOf_le hcasts key)
    have hstored : r'.get? key = r.get? key := congrArg (Keyed.get? · key) hsame
    rw [hexport, Model.get?, hstored]
    exact hread key
  · have hcast : m.castOf? key = some c := Pairs.get?_of_mem hcasts hc
    have hvalue : ∀ w, m.castValue key w = c.apply w := fun w => by rw [Model.castValue, hcast]
    refine ⟨(hvalue v).symm.trans (hheld key v hv), ?_⟩
    rw [hget] at hv
    obtain ⟨w, hw, rfl⟩ := Option.map_eq_some_iff.1 hv
    rw [hvalue]
    exact (c.isTarget_apply_or w).imp_right fun hsame => by rw [hw, hsame]
  · have hframe := (Edit.changesOnly_run m edits (m.make attributes)).frame
    have hmade := (m.changesOnly_fill attributes.entries m.blank).frame
    have hnew : r.stored = false := by
      rw [← show _ = r from hframe, ← show _ = m.make attributes from hmade]
      rfl
    have hkey : r.primaryKey = m.primaryKey := by
      rw [← show _ = r from hframe, ← show _ = m.make attributes from hmade]
      rfl
    exact Model.inserts_of_save hnew hkey hsave ((hread key).symm.trans hv) hset

/-- Readings with casts to numbers and moments. -/
def castReadings : Model :=
  { table := "readings", casts := [("count", .integer), ("taken", .datetime), ("label", .string)] }

/-- A count that was written as a text, a moment that is none, and a label written over. -/
theorem written_form_readings :
    let m := castReadings
    let attributes : Attributes := .ofList [("count", .text " 12 "), ("label", .int 3)]
    let edits : List Edit := [.set "taken" (.text "soon"), .fill [("label", .bool true)]]
    let r := Edit.run m edits (m.make attributes)
    (Pairs.keys m.casts).Nodup ∧ (∀ e ∈ m.casts, e.2 ≠ .json) ∧
      m.get? r "count" = some (.int 12) ∧ r.get? "count" = some (.int 12) ∧
        (m.object r).get? "label" = some (.text "true") ∧
          Cast.datetime.apply (.text "soon") = .text "soon" := by
  intro m attributes edits r
  have hcasts : (Pairs.keys m.casts).Nodup := by decide
  have hkinds : ∀ e ∈ m.casts, e.2 ≠ .json := by decide
  obtain ⟨hget, hread, hexport, hform, -⟩ := written_form hcasts hkinds attributes edits
  have hcount : r.get? "count" = some (.int 12) := hget "count"
  have hlabel : r.get? "label" = some (.text "true") := hget "label"
  have htaken : r.get? "taken" = some (.text "soon") := hget "taken"
  refine ⟨hcasts, hkinds, (hread "count").trans hcount, hcount, ?_, ?_⟩
  · exact (hexport r "label" rfl rfl List.not_mem_nil).trans hlabel
  · exact (hform "taken" .datetime _ (by decide) htaken).1

end ActiveRow
