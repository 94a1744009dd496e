import Mathlib.Data.List.Perm.Subperm
import ActiveRow.Value.Order

/-!
# Structural equality

A value is well formed when no object in it repeats a name, as the objects of rows and documents do
not. Structural equality is transitive, and symmetric between well-formed values. It is not
reflexive, since a NaN differs from itself.

* `same_trans`, `same_symm`.
* `same_right`: what another value equals, equals itself.
* `same_self_iff`: a value equals itself exactly when it has no NaN, at any depth.
-/

namespace ActiveRow.Value

/-! ### Well-formed values -/

mutual

/-- No object in the value repeats a name. -/
def WellFormed : Value → Prop
  | array items => ItemsFormed items
  | object fields => (Pairs.keys fields).Nodup ∧ FieldsFormed fields
  | _ => True

def ItemsFormed : List Value → Prop
  | [] => True
  | v :: rest => v.WellFormed ∧ ItemsFormed rest

def FieldsFormed : List (String × Value) → Prop
  | [] => True
  | (_, v) :: rest => v.WellFormed ∧ FieldsFormed rest

end

theorem itemsFormed_iff (vs : List Value) : ItemsFormed vs ↔ ∀ v ∈ vs, v.WellFormed := by
  induction vs with
  | nil => simp [ItemsFormed]
  | cons v vs ih => simp [ItemsFormed, ih]

theorem fieldsFormed_iff (l : List (String × Value)) :
    FieldsFormed l ↔ ∀ e ∈ l, e.2.WellFormed := by
  induction l with
  | nil => simp [FieldsFormed]
  | cons e l ih => simp [FieldsFormed, ih]

theorem sameFields_iff (l m : List (String × Value)) : sameFields l m = true ↔
    ∀ e ∈ l, ∃ v, Pairs.get? e.1 m = some v ∧ e.2.same v = true := by
  induction l with
  | nil => simp [sameFields]
  | cons e l ih =>
    obtain ⟨k, v⟩ := e
    rw [sameFields, Bool.and_eq_true, ih, List.forall_mem_cons]
    cases Pairs.get? k m <;> simp

/-! ### What equals a value of a kind -/

/-- Whether a value is equal to itself only. -/
def isPlain : Value → Bool
  | float _ | array _ | object _ => false
  | _ => true

theorem eq_of_same {a b : Value} (ha : a.isPlain = true) (h : a.same b = true) : a = b := by
  cases a <;> cases b <;> simp_all [same, isPlain]

theorem of_same_float {x : Double} {b : Value} (h : (float x).same b = true) :
    ∃ y, b = float y ∧ Double.sameNumber x y = true := by
  cases b with
  | float y => exact ⟨y, rfl, by simpa only [same] using h⟩
  | _ => simp [same] at h

theorem of_same_array {as : List Value} {b : Value} (h : (array as).same b = true) :
    ∃ bs, b = array bs ∧ sameItems as bs = true := by
  cases b with
  | array bs => exact ⟨bs, rfl, by simpa only [same] using h⟩
  | _ => simp [same] at h

theorem of_same_object {l : List (String × Value)} {b : Value} (h : (object l).same b = true) :
    ∃ m, b = object m ∧ l.length = m.length ∧ sameFields l m = true := by
  cases b with
  | object m => exact ⟨m, rfl, by simpa [same] using h⟩
  | _ => simp [same] at h

theorem of_sameItems_cons {a : Value} {as bs : List Value} (h : sameItems (a :: as) bs = true) :
    ∃ b rest, bs = b :: rest ∧ a.same b = true ∧ sameItems as rest = true := by
  cases bs with
  | nil => simp [sameItems] at h
  | cons b rest => exact ⟨b, rest, rfl, by simpa [sameItems] using h⟩

/-! ### Transitivity -/

theorem sameNumber_trans {x y z : Double} (h : Double.sameNumber x y = true)
    (h' : Double.sameNumber y z = true) : Double.sameNumber x z = true := by
  simp only [Double.sameNumber, Bool.and_eq_true, Bool.or_eq_true, decide_eq_true_eq] at *
  obtain ⟨⟨hx, hy⟩, h | rfl⟩ := h
  · obtain ⟨⟨_, hz⟩, h' | rfl⟩ := h'
    · exact ⟨⟨hx, hz⟩, .inl ⟨h.1, h'.2⟩⟩
    · exact ⟨⟨hx, hy⟩, .inl h⟩
  · exact h'

mutual

theorem same_trans : ∀ {a b c : Value}, a.same b = true → b.same c = true → a.same c = true
  | a, b, c, h, h' => by
    cases a with
    | float x =>
      obtain ⟨y, rfl, h⟩ := of_same_float h
      obtain ⟨z, rfl, h'⟩ := of_same_float h'
      simpa only [same] using sameNumber_trans h h'
    | array as =>
      obtain ⟨bs, rfl, h⟩ := of_same_array h
      obtain ⟨cs, rfl, h'⟩ := of_same_array h'
      simpa only [same] using sameItems_trans as h h'
    | object l =>
      obtain ⟨m, rfl, hl, h⟩ := of_same_object h
      obtain ⟨n, rfl, hm, h'⟩ := of_same_object h'
      simp only [same, Bool.and_eq_true, beq_iff_eq]
      refine ⟨hl.trans hm, (sameFields_iff l n).2 fun e he => ?_⟩
      obtain ⟨v, hv, hs⟩ := (sameFields_iff l m).1 h e he
      obtain ⟨w, hw, hs'⟩ := (sameFields_iff m n).1 h' (e.1, v) (Pairs.mem_of_get? hv)
      exact ⟨w, hw, sameMember_trans l e he hs hs'⟩
    | _ =>
      obtain rfl := eq_of_same rfl h
      exact h'

theorem sameItems_trans : ∀ (as : List Value) {bs cs : List Value},
    sameItems as bs = true → sameItems bs cs = true → sameItems as cs = true
  | [], [], _, _, h' => h'
  | a :: as, bs, cs, h, h' => by
    obtain ⟨b, bs, rfl, h, hs⟩ := of_sameItems_cons h
    obtain ⟨c, cs, rfl, h', hs'⟩ := of_sameItems_cons h'
    simp only [sameItems, Bool.and_eq_true]
    exact ⟨same_trans h h', sameItems_trans as hs hs'⟩

theorem sameMember_trans : ∀ (l : List (String × Value)) (e : String × Value), e ∈ l →
    ∀ {b c : Value}, e.2.same b = true → b.same c = true → e.2.same c = true
  | (k, v) :: l, e, he, b, c, h, h' => by
    rcases List.mem_cons.1 he with rfl | he
    · exact same_trans (a := v) h h'
    · exact sameMember_trans l e he h h'

end

/-! ### Symmetry -/

/-- Lists of members of one length, the first of which names only names of the second: these are
all names, when the first repeats none. -/
theorem mem_keys_of_sameFields {l m : List (String × Value)} (hl : (Pairs.keys l).Nodup)
    (hlen : l.length = m.length) (h : sameFields l m = true) {k : String}
    (hk : k ∈ Pairs.keys m) : k ∈ Pairs.keys l := by
  have hsub : Pairs.keys l ⊆ Pairs.keys m := by
    intro k' hk'
    obtain ⟨e, he, rfl⟩ := List.mem_map.1 hk'
    obtain ⟨v, hv, _⟩ := (sameFields_iff l m).1 h e he
    exact List.mem_map.2 ⟨(e.1, v), Pairs.mem_of_get? hv, rfl⟩
  have hp : (Pairs.keys l).Perm (Pairs.keys m) :=
    (hl.subperm hsub).perm_of_length_le (by simp [Pairs.keys, hlen])
  exact hp.mem_iff.2 hk

mutual

theorem same_symm : ∀ {a b : Value}, a.WellFormed → b.WellFormed → a.same b = true →
    b.same a = true
  | a, b, ha, hb, h => by
    cases a with
    | float x =>
      obtain ⟨y, rfl, h⟩ := of_same_float h
      simpa only [same, Double.sameNumber_comm y x] using h
    | array as =>
      obtain ⟨bs, rfl, h⟩ := of_same_array h
      simpa only [same] using sameItems_symm as ha hb h
    | object l =>
      obtain ⟨m, rfl, hlen, h⟩ := of_same_object h
      simp only [WellFormed, fieldsFormed_iff] at ha hb
      simp only [same, Bool.and_eq_true, beq_iff_eq]
      refine ⟨hlen.symm, (sameFields_iff m l).2 fun ⟨k, w⟩ he => ?_⟩
      -- the member of this name on the left equals one of this name, and there is only one
      have hk := mem_keys_of_sameFields ha.1 hlen h (List.mem_map.2 ⟨(k, w), he, rfl⟩)
      obtain ⟨⟨k', v⟩, hv, hk'⟩ := List.mem_map.1 hk
      obtain rfl : k' = k := hk'
      obtain ⟨w', hw, hs⟩ := (sameFields_iff l m).1 h (k', v) hv
      obtain rfl : w = w' := Option.some.inj ((Pairs.get?_of_mem hb.1 he).symm.trans hw)
      exact ⟨v, Pairs.get?_of_mem ha.1 hv,
        sameMember_symm l (k', v) hv (ha.2 _ hv) (hb.2 _ he) hs⟩
    | _ =>
      obtain rfl := eq_of_same rfl h
      exact h

theorem sameItems_symm : ∀ (as : List Value) {bs : List Value}, ItemsFormed as → ItemsFormed bs →
    sameItems as bs = true → sameItems bs as = true
  | [], [], _, _, h => h
  | a :: as, bs, ha, hb, h => by
    obtain ⟨b, bs, rfl, h, hs⟩ := of_sameItems_cons h
    simp only [sameItems, Bool.and_eq_true]
    exact ⟨same_symm ha.1 hb.1 h, sameItems_symm as ha.2 hb.2 hs⟩

theorem sameMember_symm : ∀ (l : List (String × Value)) (e : String × Value), e ∈ l →
    ∀ {b : Value}, e.2.WellFormed → b.WellFormed → e.2.same b = true → b.same e.2 = true
  | (k, v) :: l, e, he, b, hv, hb, h => by
    rcases List.mem_cons.1 he with rfl | he
    · exact same_symm (a := v) hv hb h
    · exact sameMember_symm l e he hv hb h

end

/-- **What another value equals, equals itself.** -/
theorem same_right {a b : Value} (ha : a.WellFormed) (hb : b.WellFormed) (h : a.same b = true) :
    b.same b = true :=
  same_trans (same_symm ha hb h) h

/-! ### Reflexivity -/

mutual

/-- Whether there is a NaN in the value, at any depth. -/
def hasNaN : Value → Bool
  | float x => x.isNaN
  | array items => itemsHaveNaN items
  | object fields => fieldsHaveNaN fields
  | _ => false

def itemsHaveNaN : List Value → Bool
  | [] => false
  | v :: rest => v.hasNaN || itemsHaveNaN rest

def fieldsHaveNaN : List (String × Value) → Bool
  | [] => false
  | (_, v) :: rest => v.hasNaN || fieldsHaveNaN rest

end

mutual

/-- What equals another value has no NaN. -/
theorem hasNaN_of_same : ∀ {a b : Value}, a.same b = true → a.hasNaN = false
  | a, b, h => by
    cases a with
    | float x =>
      obtain ⟨y, -, h⟩ := of_same_float h
      simp only [Double.sameNumber, Bool.and_eq_true, Bool.not_eq_true'] at h
      exact h.1.1
    | array as =>
      obtain ⟨bs, -, h⟩ := of_same_array h
      exact itemsHaveNaN_of_same as h
    | object l =>
      obtain ⟨m, -, -, h⟩ := of_same_object h
      exact fieldsHaveNaN_of_same l h
    | _ => rfl

theorem itemsHaveNaN_of_same : ∀ (as : List Value) {bs : List Value},
    sameItems as bs = true → itemsHaveNaN as = false
  | [], _, _ => rfl
  | a :: as, bs, h => by
    obtain ⟨b, bs, -, h, hs⟩ := of_sameItems_cons h
    rw [itemsHaveNaN, hasNaN_of_same h, itemsHaveNaN_of_same as hs]
    rfl

theorem fieldsHaveNaN_of_same : ∀ (l : List (String × Value)) {m : List (String × Value)},
    sameFields l m = true → fieldsHaveNaN l = false
  | [], _, _ => rfl
  | (k, v) :: l, m, h => by
    rw [sameFields, Bool.and_eq_true] at h
    rw [fieldsHaveNaN, fieldsHaveNaN_of_same l h.2, Bool.or_false]
    cases hw : Pairs.get? k m with
    | none =>
      rw [hw] at h
      exact absurd h.1 Bool.false_ne_true
    | some w =>
      rw [hw] at h
      exact hasNaN_of_same h.1

end

mutual

theorem same_self : ∀ {v : Value}, v.WellFormed → v.hasNaN = false → v.same v = true
  | v, hv, h => by
    cases v with
    | float x =>
      rw [same]
      exact (Double.sameNumber_self_iff x).2 h
    | array items =>
      rw [same]
      exact sameItems_self items hv h
    | object fields =>
      rw [same, beq_self_eq_true, Bool.true_and, sameFields_iff]
      intro e he
      exact ⟨e.2, Pairs.get?_of_mem hv.1 he, sameMember_self fields hv.2 h e he⟩
    | _ => simp [same]

theorem sameItems_self : ∀ items : List Value, ItemsFormed items → itemsHaveNaN items = false →
    sameItems items items = true
  | [], _, _ => rfl
  | v :: rest, hv, h => by
    rw [itemsHaveNaN, Bool.or_eq_false_iff] at h
    rw [sameItems, same_self hv.1 h.1, sameItems_self rest hv.2 h.2]
    rfl

theorem sameMember_self : ∀ fields : List (String × Value), FieldsFormed fields →
    fieldsHaveNaN fields = false → ∀ e ∈ fields, e.2.same e.2 = true
  | (k, v) :: rest, hv, h, e, he => by
    rw [fieldsHaveNaN, Bool.or_eq_false_iff] at h
    rcases List.mem_cons.1 he with rfl | he
    · exact same_self (v := v) hv.1 h.1
    · exact sameMember_self rest hv.2 h.2 e he

end

/-- **A value equals itself** exactly when it has no NaN. -/
theorem same_self_iff {v : Value} (hv : v.WellFormed) : v.same v = true ↔ v.hasNaN = false :=
  ⟨hasNaN_of_same, same_self hv⟩

end ActiveRow.Value
