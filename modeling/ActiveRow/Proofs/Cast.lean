import ActiveRow.Cast
import ActiveRow.Proofs.Json.Texts

/-!
# Casts applied again

A cast gives a value of the kind of its column, or the value as it was, and leaves both alone when
it is applied again. The cast to documents is the exception: the document that it reads may be a
text, and that text may be a document too. How often a text is read is then seen in the result.

* `apply_apply`: the casts to the other kinds.
* `json_apply_eq_self_iff`: what the cast to documents leaves alone.
* `apply_apply_iff`, `applyAll_apply_iff`: when a cast leaves its own result alone, applied again
  once or any number of times, since a document makes a text shorter every time.
-/

namespace ActiveRow

namespace Value

/-- Whether the value is a text that is a document. -/
def isDocument : Value → Bool
  | text s => (Json.ofText? s).isSome
  | _ => false

/-- Whether the value is a text that is the document of a text which is a document again. -/
def isNestedDocument : Value → Bool
  | text s =>
    match Json.ofText? s with
    | some (.string t) => (Json.ofText? t).isSome
    | _ => false
  | _ => false

/-- The room that a text takes, with its quotes; other values take none. -/
def textSize : Value → Nat
  | text s => s.length + 1
  | _ => 0

end Value

namespace Cast

/-- Applies casts one after the other. -/
def applyAll (casts : List Cast) (v : Value) : Value := casts.foldl (fun v c => c.apply v) v

theorem applyAll_cons (c : Cast) (casts : List Cast) (v : Value) :
    applyAll (c :: casts) v = applyAll casts (c.apply v) := rfl

/-- The first casts may be applied before the others. -/
theorem applyAll_drop (n : Nat) (casts : List Cast) (v : Value) :
    applyAll (casts.drop n) (applyAll (casts.take n) v) = applyAll casts v := by
  rw [applyAll, applyAll, ← List.foldl_append, List.take_append_drop, applyAll]

/-! ### Casts to other kinds than documents -/

theorem toInteger_toInteger (v : Value) : toInteger (toInteger v) = toInteger v := by
  cases v with
  | float x =>
    by_cases hx : x.isFinite = true
    · simp only [toInteger, if_pos hx]
    · simp only [toInteger, if_neg hx]
  | text s =>
    -- a text that is no numeral stays, and is none again
    cases hn : Decimal.int64? (Text.trimChars s.toList) with
    | some n => simp only [toInteger, hn]
    | none =>
      cases hx : Decimal.double? (Text.trimChars s.toList) with
      | some x => simp only [toInteger, hn, hx]
      | none => simp only [toInteger, hn, hx]
  | _ => rfl

theorem toFloat_toFloat (v : Value) : toFloat (toFloat v) = toFloat v := by
  cases hv : v.toNumber with
  | some x =>
    have hfloat : toFloat v = .float x := by simp only [toFloat, hv]
    rw [hfloat]
    rfl
  | none =>
    have hsame : toFloat v = v := by simp only [toFloat, hv]
    rw [hsame, hsame]

theorem toBoolean_toBoolean (v : Value) : toBoolean (toBoolean v) = toBoolean v := by
  cases v with
  | text s =>
    cases hs : wordOf? s with
    | some b => simp only [toBoolean, hs]
    | none => simp only [toBoolean, hs]
  | _ => rfl

theorem toText_toText (v : Value) : toText (toText v) = toText v := by
  cases v <;> rfl

theorem toDatetime_toDatetime (v : Value) : toDatetime (toDatetime v) = toDatetime v := by
  cases v with
  | int n =>
    cases ht : Timestamp.ofUnix? n.toInt 0 with
    | some t => simp only [toDatetime, ht]
    | none => simp only [toDatetime, ht]
  | text s =>
    cases ht : Timestamp.ofText? s with
    | some t => simp only [toDatetime, ht]
    | none => simp only [toDatetime, ht]
  | _ => rfl

/-- What a cast does to values that are not null. -/
def conversion : Cast → Value → Value
  | integer => toInteger
  | float => toFloat
  | boolean => toBoolean
  | string => toText
  | json => toDocument
  | datetime => toDatetime

theorem apply_of_not_isNull (c : Cast) {v : Value} (hv : ¬v.isNull = true) :
    c.apply v = c.conversion v := by
  cases c <;> exact if_neg hv

theorem conversion_conversion {c : Cast} (hc : c ≠ .json) (v : Value) :
    c.conversion (c.conversion v) = c.conversion v := by
  cases c with
  | integer => exact toInteger_toInteger v
  | float => exact toFloat_toFloat v
  | boolean => exact toBoolean_toBoolean v
  | string => exact toText_toText v
  | json => exact absurd rfl hc
  | datetime => exact toDatetime_toDatetime v

/-- **A cast leaves its own result alone**, unless it is the one to documents. -/
theorem apply_apply {c : Cast} (hc : c ≠ .json) (v : Value) : c.apply (c.apply v) = c.apply v := by
  by_cases hv : v.isNull = true
  · have hnull : c.apply v = v := if_pos hv
    rw [hnull, hnull]
  · by_cases hw : (c.apply v).isNull = true
    · exact if_pos hw
    · rw [c.apply_of_not_isNull hw, c.apply_of_not_isNull hv, conversion_conversion hc]

/-- Casts of one kind, applied to a result of that kind. -/
theorem applyAll_eq_self {c : Cast} {v : Value} (hv : c.apply v = v) :
    ∀ {casts : List Cast}, (∀ d ∈ casts, d = c) → applyAll casts v = v
  | [], _ => rfl
  | d :: casts, h => by
    obtain ⟨rfl, hcasts⟩ := List.forall_mem_cons.1 h
    rw [applyAll_cons, hv]
    exact applyAll_eq_self hv hcasts

/-! ### The cast to documents -/

theorem json_apply (v : Value) : json.apply v = toDocument v := by
  cases v <;> rfl

theorem textSize_ofInteger (n : Int) : (Value.ofInteger n).textSize = 0 := by
  unfold Value.ofInteger
  split <;> rfl

/-- A text that is a document is read as a shorter text, or as none. -/
theorem textSize_json_apply_lt {v : Value} (h : v.isDocument = true) :
    (json.apply v).textSize < v.textSize := by
  rw [json_apply]
  cases v with
  | text s =>
    obtain ⟨j, hj⟩ := Option.isSome_iff_exists.1 h
    rw [toDocument, hj]
    cases j with
    | string t =>
      have hlength := Json.length_lt_of_ofText hj
      exact Nat.succ_lt_succ hlength
    | integer n =>
      have hnone : (Value.ofJson (.integer n)).textSize = 0 := textSize_ofInteger n
      exact lt_of_eq_of_lt hnone (Nat.succ_pos _)
    | _ => exact Nat.succ_pos _
  | _ => cases h

/-- **The cast to documents leaves alone** what is no document. -/
theorem json_apply_eq_self_iff (v : Value) : json.apply v = v ↔ v.isDocument = false := by
  constructor
  · intro h
    by_contra hdocument
    have hlt := textSize_json_apply_lt (eq_true_of_ne_false hdocument)
    rw [h] at hlt
    exact lt_irrefl _ hlt
  · intro h
    rw [json_apply]
    cases v with
    | text s =>
      have hnone : Json.ofText? s = none :=
        Option.isNone_iff_eq_none.1 (Option.isSome_eq_false_iff.1 h)
      rw [toDocument, hnone]
    | _ => rfl

theorem textSize_json_apply_le (v : Value) : (json.apply v).textSize ≤ v.textSize := by
  cases h : v.isDocument with
  | true => exact (textSize_json_apply_lt h).le
  | false => rw [(json_apply_eq_self_iff v).2 h]

theorem textSize_applyAll_json_le : ∀ {casts : List Cast}, (∀ c ∈ casts, c = json) →
    ∀ v : Value, (applyAll casts v).textSize ≤ v.textSize
  | [], _, v => le_rfl
  | c :: casts, h, v => by
    obtain ⟨rfl, hcasts⟩ := List.forall_mem_cons.1 h
    rw [applyAll_cons]
    exact (textSize_applyAll_json_le hcasts _).trans (textSize_json_apply_le v)

/-- **Casts to documents**, one or more, leave alone what one leaves alone. -/
theorem applyAll_json_iff {casts : List Cast} (hne : casts ≠ []) (h : ∀ c ∈ casts, c = json)
    (v : Value) : applyAll casts v = v ↔ v.isDocument = false := by
  constructor
  · intro hall
    by_contra hdocument
    obtain ⟨c, casts, rfl⟩ := List.exists_cons_of_ne_nil hne
    obtain ⟨rfl, hcasts⟩ := List.forall_mem_cons.1 h
    have hlt := textSize_json_apply_lt (eq_true_of_ne_false hdocument)
    have hle := textSize_applyAll_json_le hcasts (json.apply v)
    rw [← applyAll_cons, hall] at hle
    omega
  · exact fun hdocument => applyAll_eq_self ((json_apply_eq_self_iff v).2 hdocument) h

/-- The result of the cast is a document when the value was a nested one. -/
theorem isDocument_json_apply (v : Value) :
    (json.apply v).isDocument = v.isNestedDocument := by
  rw [json_apply]
  cases v with
  | text s =>
    cases hj : Json.ofText? s with
    | none =>
      simp only [toDocument, Value.isDocument, Value.isNestedDocument, hj, Option.isSome_none]
    | some j =>
      simp only [toDocument, Value.isNestedDocument, hj]
      cases j with
      | integer n =>
        rw [Value.ofJson, Value.ofInteger]
        split <;> rfl
      | _ => rfl
  | _ => rfl

/-! ### Any cast -/

/-- **Casts of one kind leave the result of that kind alone**, unless they are to documents and the
value was a text of a text that is a document again. -/
theorem applyAll_apply_iff {c : Cast} {casts : List Cast} (hne : casts ≠ [])
    (h : ∀ d ∈ casts, d = c) (v : Value) :
    applyAll casts (c.apply v) = c.apply v ↔ (c = .json → v.isNestedDocument = false) := by
  by_cases hc : c = .json
  · subst hc
    rw [applyAll_json_iff hne h, isDocument_json_apply]
    exact ⟨fun hnested _ => hnested, fun hnested => hnested rfl⟩
  · exact iff_of_true (applyAll_eq_self (apply_apply hc v) h) fun hjson => absurd hjson hc

/-- **A cast leaves its own result alone**, with the same exception. -/
theorem apply_apply_iff (c : Cast) (v : Value) :
    c.apply (c.apply v) = c.apply v ↔ (c = .json → v.isNestedDocument = false) :=
  applyAll_apply_iff (List.cons_ne_nil c []) (fun _ => List.mem_singleton.1) v

end Cast

end ActiveRow
