import Mathlib.Data.List.Forall2
import ActiveRow.Page

/-!
# What exports show

Two records agree when an observer who sees only what they show cannot tell them apart: they have
the same lists of names to hide and to show, the same shown attributes in the same order, and the
same shown relations, whose records agree in turn. All that is exported of them is then the same,
whatever the hidden attributes and relations are.

* `Record.object_agree`: agreeing records show the same, by induction over the tree of records.
* `Record.mem_keys_object_iff`, `Record.value_of_mem_object`: which names a record shows, and what
  stands under each.
* `exports_agree`: exports of records, collections and pages.
-/

namespace ActiveRow

open List (Forall₂)

/-! ### Agreement -/

namespace Record

/-- The attributes that are shown, in their order. -/
def shownAttributes (r : Record) : List (String × Value) :=
  r.attributes.entries.filter fun e => r.showsName e.1

/-- The relations that are shown, in their order. -/
def shownRelations (r : Record) : List (String × Related Record) :=
  r.relations.filter fun e => r.showsName e.1

end Record

/-- What hangs on two records agrees: it is absent on both, or its records agree one by one. -/
inductive Related.Agree (A : Record → Record → Prop) : Related Record → Related Record → Prop
  | none : Agree A (.one none) (.one none)
  | one {r r' : Record} (h : A r r') : Agree A (.one (some r)) (.one (some r'))
  | many {rs rs' : List Record} (h : Forall₂ A rs rs') : Agree A (.many rs) (.many rs')

/-- Two relations have one name and agree. -/
inductive Related.Named (A : Record → Record → Prop) :
    String × Related Record → String × Related Record → Prop
  | mk (name : String) {x y : Related Record} (h : x.Agree A y) : Named A (name, x) (name, y)

/-- **Records that agree**, at every depth, in all that they show. -/
inductive Record.Agree : Record → Record → Prop
  | mk {r r' : Record} (hidden : r.hidden = r'.hidden) (visible : r.visible = r'.visible)
      (attributes : r.shownAttributes = r'.shownAttributes)
      (relations : Forall₂ (Related.Named Record.Agree) r.shownRelations r'.shownRelations) :
      Agree r r'

/-- Collections of one model whose records agree one by one. -/
structure Collection.Agree (c c' : Collection) : Prop where
  model : c.model = c'.model
  items : Forall₂ Record.Agree c.items c'.items

/-- Pages of the same numbers whose records agree. -/
structure Page.Agree (p p' : Page) : Prop where
  data : p.data.Agree p'.data
  total : p.total = p'.total
  perPage : p.perPage = p'.perPage
  number : p.number = p'.number
  last : p.last = p'.last
  start : p.start = p'.start
  stop : p.stop = p'.stop

/-! ### What a record shows -/

/-- What stands under the name of a relation: the objects of its records. -/
def Related.nested : Related Record → Value
  | .one none => .null
  | .one (some r) => .object r.object.entries
  | .many rs => .array (rs.map fun r => .object r.object.entries)

namespace Record

theorem objectValues_eq (rs : List Record) :
    objectValues rs = rs.map fun r => .object r.object.entries := by
  induction rs with
  | nil => rfl
  | cons r rs ih => rw [objectValues, ih, List.map_cons]

theorem relatedValue_eq (related : Related Record) : relatedValue related = related.nested := by
  cases related with
  | one record =>
    cases record with
    | none => rfl
    | some r => rfl
  | many rs => rw [relatedValue, objectValues_eq, Related.nested]

theorem relationValues_eq (hidden visible : List String) (l : List (String × Related Record)) :
    relationValues hidden visible l =
      (l.filter fun e => shows hidden visible e.1).map fun e => (e.1, e.2.nested) := by
  induction l with
  | nil => rfl
  | cons e l ih =>
    obtain ⟨name, related⟩ := e
    rw [relationValues, ih, relatedValue_eq, List.filter_cons]
    split <;> rfl

/-- The shown attributes, with the shown relations written over them. -/
theorem object_eq (r : Record) : r.object =
    (r.attributes.filter fun e => r.showsName e.1).insertMany
      (r.shownRelations.map fun e => (e.1, e.2.nested)) := by
  obtain ⟨table, primaryKey, attributes, baseline, stored, relations, hidden, visible⟩ := r
  rw [object, relationValues_eq]
  rfl

/-! ### Agreeing records show the same -/

theorem attributes_agree {r r' : Record} (h : r.shownAttributes = r'.shownAttributes) :
    (r.attributes.filter fun e => r.showsName e.1) =
      r'.attributes.filter fun e => r'.showsName e.1 :=
  Keyed.ext h

mutual

/-- **Agreeing records show the same.** -/
theorem object_agree : ∀ {r r' : Record}, r.Agree r' → r.object = r'.object
  | ⟨table, primaryKey, attributes, baseline, stored, relations, hidden, visible⟩, r',
      .mk _ _ hattributes hrelations => by
    have hvalues := relationValues_agree hidden visible hrelations
    have hshown := attributes_agree hattributes
    rw [object_eq r', ← hshown, object, hvalues]
    rfl

/-- The relations that are left out do not matter. -/
theorem relationValues_agree (hidden visible : List String) :
    ∀ {l m : List (String × Related Record)},
      Forall₂ (Related.Named Record.Agree) (l.filter fun e => shows hidden visible e.1) m →
        relationValues hidden visible l = m.map fun e => (e.1, e.2.nested)
  | [], _, .nil => rfl
  | (name, related) :: l, m, h => by
    rw [List.filter_cons] at h
    rw [relationValues]
    by_cases hshown : shows hidden visible name = true
    · rw [if_pos hshown] at h ⊢
      cases h with
      | cons hfirst hrest =>
        obtain ⟨_, hrelated⟩ := hfirst
        rw [List.map_cons, relatedValue_agree hrelated, relationValues_agree hidden visible hrest]
    · rw [if_neg hshown] at h ⊢
      exact relationValues_agree hidden visible h

theorem relatedValue_agree : ∀ {x y : Related Record}, x.Agree Record.Agree y →
    relatedValue x = y.nested
  | .one none, _, .none => rfl
  | .one (some r), _, .one h => by rw [relatedValue, object_agree h, Related.nested]
  | .many rs, _, .many h => by rw [relatedValue, objectValues_agree h, Related.nested]

theorem objectValues_agree : ∀ {rs rs' : List Record}, Forall₂ Record.Agree rs rs' →
    objectValues rs = rs'.map fun r => .object r.object.entries
  | [], _, .nil => rfl
  | r :: rs, _, .cons h hs => by
    rw [objectValues, object_agree h, objectValues_agree hs, List.map_cons]

end

/-! ### The names that a record shows -/

/-- **The names that a record shows** are the visible ones among its attributes and relations. -/
theorem mem_keys_object_iff (r : Record) (name : String) : name ∈ r.object.keys ↔
    r.showsName name = true ∧ (name ∈ r.attributes.keys ∨ name ∈ Pairs.keys r.relations) := by
  have hrelations : name ∈ Pairs.keys (r.shownRelations.map fun e => (e.1, e.2.nested)) ↔
      r.showsName name = true ∧ name ∈ Pairs.keys r.relations := by
    simp only [Pairs.keys, shownRelations, List.map_map, List.mem_map, List.mem_filter,
      Function.comp_apply]
    constructor
    · rintro ⟨e, ⟨he, hshown⟩, rfl⟩
      exact ⟨hshown, e, he, rfl⟩
    · rintro ⟨hshown, e, he, rfl⟩
      exact ⟨e, ⟨he, hshown⟩, rfl⟩
  rw [← not_iff_not, ← Keyed.get?_eq_none_iff, object_eq, Keyed.get?_insertMany,
    Option.or_eq_none_iff, Keyed.get?_ofList_eq_none_iff, hrelations, Keyed.get?_filter]
  by_cases hshown : r.showsName name = true
  · simp [hshown, Keyed.get?_eq_none_iff, and_comm]
  · simp [hshown]

/-- **What stands under a name** that a record shows: the objects of the records of a relation of
this name, or if there is none, the attribute. -/
theorem value_of_mem_object {r : Record} {name : String} {v : Value}
    (h : (name, v) ∈ r.object.entries) :
    (∃ related, (name, related) ∈ r.relations ∧ v = related.nested) ∨
      name ∉ Pairs.keys r.relations ∧ r.get? name = some v := by
  have hshown := ((r.mem_keys_object_iff name).1 (List.mem_map_of_mem h)).1
  have hget : r.object.get? name = some v := Pairs.get?_of_mem r.object.nodup h
  rw [object_eq, Keyed.get?_insertMany, Option.or_eq_some_iff, Keyed.get?_filter,
    if_pos hshown] at hget
  obtain hrelation | ⟨hnone, hattribute⟩ := hget
  · obtain ⟨e, he, heq⟩ := List.mem_map.1 (Keyed.mem_of_get?_ofList hrelation)
    obtain ⟨rfl, rfl⟩ := Prod.mk.inj heq
    exact .inl ⟨e.2, (List.mem_filter.1 he).1, rfl⟩
  · rw [Keyed.get?_ofList_eq_none_iff] at hnone
    refine .inr ⟨fun hmem => hnone ?_, hattribute⟩
    obtain ⟨e, he, rfl⟩ := List.mem_map.1 hmem
    exact List.mem_map.2 ⟨(e.1, e.2.nested),
      List.mem_map_of_mem (List.mem_filter.2 ⟨he, hshown⟩), rfl⟩

end Record

/-! ### Exports -/

theorem Keyed.keys_modify {α : Type} (m : Keyed α) (key : String) (f : α → α) :
    (m.modify key f).keys = m.keys := by
  unfold Keyed.modify
  cases h : m.get? key with
  | none => rfl
  | some v =>
    have hmem : key ∈ m.keys := by
      by_contra hnot
      rw [(m.get?_eq_none_iff key).2 hnot] at h
      cases h
    rw [Keyed.keys_insert, if_pos hmem]

/-- Casts change what is shown under a name, not the names. -/
theorem Model.keys_object (m : Model) (r : Record) : (m.object r).keys = r.object.keys := by
  have hcasts : ∀ (casts : List (String × Cast)) (o : Attributes),
      (casts.foldl (fun o c => o.modify c.1 c.2.apply) o).keys = o.keys := by
    intro casts
    induction casts with
    | nil => exact fun _ => rfl
    | cons c casts ih => exact fun o => (ih _).trans (o.keys_modify c.1 c.2.apply)
  exact hcasts m.casts r.object

theorem Model.object_agree (m : Model) {r r' : Record} (h : r.Agree r') :
    m.object r = m.object r' := by
  rw [Model.object, Record.object_agree h, Model.object]

theorem Model.objectValue_agree (m : Model) {r r' : Record} (h : r.Agree r') :
    m.objectValue r = m.objectValue r' := by
  rw [Model.objectValue, m.object_agree h, Model.objectValue]

theorem Model.json_agree (m : Model) {r r' : Record} (h : r.Agree r') : m.json r = m.json r' := by
  rw [Model.json, m.objectValue_agree h, Model.json]

namespace Collection

/-- Whatever is made of records, if it is the same for records that agree. -/
theorem Agree.map {α : Type} {c c' : Collection} (h : c.Agree c') {f : Model → Record → α}
    (hf : ∀ m {r r'}, Record.Agree r r' → f m r = f m r') :
    c.items.map (f c.model) = c'.items.map (f c'.model) := by
  rw [← h.model]
  exact List.forall₂_eq_eq_eq ▸ List.rel_map (fun _ _ hr => hf c.model hr) h.items

variable {c c' : Collection} (h : c.Agree c')

include h

theorem objects_agree : c.objects = c'.objects := h.map Model.object_agree

theorem json_agree : c.json = c'.json := congrArg Json.array (h.map Model.json_agree)

theorem document_agree : c.document = c'.document :=
  congrArg Json.array (h.map fun m _ _ hr => congrArg Value.document (m.objectValue_agree hr))

end Collection

namespace Page

/-- Pages that are made of agreeing collections agree. -/
theorem agree_ofData {c c' : Collection} (h : c.Agree c') (total perPage number : UInt64) :
    (ofData c total perPage number).Agree (ofData c' total perPage number) := by
  have hsize : c.size = c'.size := h.items.length_eq
  have hempty : c.isEmpty = c'.isEmpty := by
    obtain ⟨m, rs⟩ := c
    obtain ⟨m', rs'⟩ := c'
    cases h.items <;> rfl
  exact ⟨h, rfl, rfl, rfl, rfl, by simp only [ofData, hempty],
    by simp only [ofData, hempty, hsize]⟩

variable {p p' : Page} (h : p.Agree p')

include h

theorem fields_agree {data data' : Json} (hdata : data = data') :
    p.fields data = p'.fields data' := by
  simp only [fields, hdata, h.total, h.perPage, h.number, h.last, h.start, h.stop]

theorem json_agree : p.json = p'.json :=
  congrArg (fun l => Json.object (Json.sortFields l))
    (fields_agree h (Collection.json_agree h.data))

theorem document_agree : p.document = p'.document :=
  congrArg Json.object (fields_agree h (Collection.document_agree h.data))

end Page

/-- **What is hidden is never exported.** Records that agree in what they show, at every depth, have
the same object and the same document, and so have the collections and the pages of such records:
none of it tells what the hidden attributes and relations are. A record shows visible names only,
with or without casts. Under each stands what hangs on the record there, a null or the objects of
the related records as these show themselves, or else the attribute. -/
theorem exports_agree :
    (∀ (m : Model) {r r' : Record}, r.Agree r' →
      m.object r = m.object r' ∧ m.json r = m.json r') ∧
    (∀ {c c' : Collection}, c.Agree c' →
      c.objects = c'.objects ∧ c.json = c'.json ∧ c.document = c'.document) ∧
    (∀ {p p' : Page}, p.Agree p' → p.json = p'.json ∧ p.document = p'.document) ∧
    (∀ (m : Model) (r : Record) (name : String), name ∈ (m.object r).keys ↔
      r.showsName name = true ∧ (name ∈ r.attributes.keys ∨ name ∈ Pairs.keys r.relations)) ∧
    ∀ (r : Record) (name : String) (v : Value), (name, v) ∈ r.object.entries →
      r.showsName name = true ∧
        ((∃ related, (name, related) ∈ r.relations ∧ v = related.nested) ∨
          name ∉ Pairs.keys r.relations ∧ r.get? name = some v) := by
  refine ⟨fun m r r' h => ⟨m.object_agree h, m.json_agree h⟩, fun h => ?_, fun h => ?_, ?_, ?_⟩
  · exact ⟨Collection.objects_agree h, Collection.json_agree h, Collection.document_agree h⟩
  · exact ⟨Page.json_agree h, Page.document_agree h⟩
  · intro m r name
    rw [m.keys_object, r.mem_keys_object_iff]
  · intro r name v hv
    have hname : name ∈ r.object.keys := List.mem_map_of_mem hv
    exact ⟨((r.mem_keys_object_iff name).1 hname).1, Record.value_of_mem_object hv⟩

/-- Two users with a hidden password, and posts on which a note is hidden, a relation also. -/
theorem exports_agree_users :
    let m : Model := { table := "users", hidden := ["password"], casts := [("age", .string)] }
    let blank : Record := { table := "posts", primaryKey := "id", visible := ["id"] }
    let post (note : Value) : Record :=
      (blank.hydrate (.ofList [("note", note), ("id", .int 7)])).setRelation "author" (.one none)
    let user (password note : Value) : Record := ((m.hydrate (.ofList
      [("id", .int 1), ("password", password), ("age", .int 30)])).setRelation "posts"
        (.many [post note])).setRelation "password" (.one (some (post password)))
    let r := user (.text "secret") .null
    let r' := user (.text "changed") (.text "draft")
    let page (r : Record) : Page := .ofData ⟨m, [r]⟩ 5 1 1
    r.Agree r' ∧ Collection.Agree ⟨m, [r]⟩ ⟨m, [r']⟩ ∧ (page r).Agree (page r') ∧
      m.json r = m.json r' ∧ Collection.document ⟨m, [r]⟩ = Collection.document ⟨m, [r']⟩ ∧
        (page r).json = (page r').json ∧
          m.object r = .ofList [("id", .int 1), ("age", .text "30"),
            ("posts", .array [.object [("id", .int 7)]])] := by
  intro m blank post user r r' page
  have hpost : (post .null).Agree (post (.text "draft")) := .mk rfl rfl rfl .nil
  have hr : r.Agree r' := .mk rfl rfl rfl (.cons (.mk "posts" (.many (.cons hpost .nil))) .nil)
  have hc : Collection.Agree ⟨m, [r]⟩ ⟨m, [r']⟩ := ⟨rfl, .cons hr .nil⟩
  have hp : (page r).Agree (page r') := Page.agree_ofData hc 5 1 1
  exact ⟨hr, hc, hp, (exports_agree.1 m hr).2, (exports_agree.2.1 hc).2.2,
    (exports_agree.2.2.1 hp).1, Keyed.ext rfl⟩

end ActiveRow
