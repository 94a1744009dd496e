import ActiveRow.Collection
import ActiveRow.Proofs.Decimal.Whole
import ActiveRow.Proofs.Text.Spans
import ActiveRow.Proofs.Uuid
import ActiveRow.Proofs.Value.Same

/-!
# The identity of values

The identity of a value is the name of its kind and its plain text. Since no kind has a colon in its
name, both are read off it.

* `identity_eq_iff`: two values have one identity when they have one kind and one plain text.
* `identity_key_iff`, `identity_eq_iff_same`: keys are told by their identities.
-/

namespace ActiveRow

open Collection (identity)

namespace Value

/-- Two values of one kind. -/
inductive OneKind : Value → Value → Prop
  | null : OneKind null null
  | bool (a b : Bool) : OneKind (bool a) (bool b)
  | int (a b : Int64) : OneKind (int a) (int b)
  | float (a b : Double) : OneKind (float a) (float b)
  | text (a b : String) : OneKind (text a) (text b)
  | uuid (a b : Uuid) : OneKind (uuid a) (uuid b)
  | timestamp (a b : Timestamp) : OneKind (timestamp a) (timestamp b)
  | array (a b : List Value) : OneKind (array a) (array b)
  | object (a b : List (String × Value)) : OneKind (object a) (object b)

theorem oneKind_of_kind_eq {a b : Value} (h : a.kind = b.kind) : OneKind a b := by
  cases a <;> cases b <;> first | constructor | simp [kind] at h

theorem colon_not_mem_kind (v : Value) : ':' ∉ v.kind.toList := by
  cases v <;> simp [kind]

/-- **One identity** is one kind and one plain text. -/
theorem identity_eq_iff (v w : Value) :
    identity (some v) = identity (some w) ↔ v.kind = w.kind ∧ v.plain = w.plain := by
  constructor
  · intro h
    have hchars := congrArg String.toList h
    simp only [identity, String.toList_append, List.append_assoc] at hchars
    obtain ⟨hkind, hplain⟩ :=
      Text.cut_unique (colon_not_mem_kind v) (colon_not_mem_kind w) hchars
    exact ⟨String.toList_inj.1 hkind, String.toList_inj.1 hplain⟩
  · rintro ⟨hkind, hplain⟩
    rw [identity, identity, hkind, hplain]

theorem identity_some_ne_none (v : Value) : identity (some v) ≠ identity none := by
  intro h
  have hcolon : ':' ∈ (identity none).toList := by
    rw [← h, identity, String.toList_append, String.toList_append]
    exact List.mem_append_left _ (List.mem_append_right _ (by decide))
  exact absurd hcolon (by decide)

/-! ### Keys -/

/-- Whether a value is of a kind that keys have: a null, a boolean, an integer, a text or an
identifier. -/
def isKey : Value → Bool
  | null | bool _ | int _ | text _ | uuid _ => true
  | _ => false

theorem same_of_isKey {a : Value} (ha : a.isKey = true) (b : Value) : a.same b = true ↔ a = b := by
  refine ⟨eq_of_same ?_, ?_⟩
  · cases a <;> first | rfl | cases ha
  · rintro rfl
    cases a <;> first | exact absurd ha Bool.false_ne_true | simp [same]

/-- **Keys are told by their identities**, from any other value. -/
theorem identity_key_iff {a : Value} (ha : a.isKey = true) (b : Value) :
    identity (some a) = identity (some b) ↔ a = b := by
  refine ⟨fun h => ?_, fun h => congrArg (fun v => identity (some v)) h⟩
  obtain ⟨hkind, hplain⟩ := (identity_eq_iff a b).1 h
  cases oneKind_of_kind_eq hkind with
  | null => rfl
  | bool x y =>
    cases x <;> cases y <;> first | rfl | simp [plain] at hplain
  | int m n => rw [Int64.toInt_inj.1 (Decimal.whole_inj hplain)]
  | text s t => exact congrArg text hplain
  | uuid u v => exact congrArg uuid (Uuid.written_inj hplain)
  | _ => cases ha

theorem same_key_iff {b : Value} (hb : b.isKey = true) (a : Value) : a.same b = true ↔ a = b := by
  refine ⟨fun h => ?_, ?_⟩
  · cases a <;> cases b <;> simp_all [same, isKey]
  · rintro rfl
    exact (same_of_isKey hb a).2 rfl

/-- **A key is looked up by its identity** as it is by comparing. -/
theorem identity_eq_iff_same {b : Value} (hb : b.isKey = true) (a : Value) :
    identity (some a) = identity (some b) ↔ a.same b = true := by
  rw [same_key_iff hb, eq_comm, identity_key_iff hb, eq_comm]

end Value

end ActiveRow
