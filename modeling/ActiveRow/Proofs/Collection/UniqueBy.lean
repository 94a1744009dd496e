import ActiveRow.Proofs.Collection.Repeats
import ActiveRow.Proofs.Value.Indistinct

/-!
# Dropping records by an attribute

A record is dropped when an earlier one has a value of the same identity for the attribute, or
neither has one. Where identities tell the values, only records with equal values are dropped.

* `Collection.uniqueBy_keepsFirst`: which records are kept.
* `Collection.uniqueBy_loses_record`: records with arrays of different infinities, one of which is
  dropped.
-/

namespace ActiveRow

namespace Collection

open Option (Rel)

theorem identity_eq_iff_rel (o o' : Option Value) :
    identity o = identity o' ↔ Rel Value.Indistinct o o' := by
  cases o with
  | none =>
    cases o' with
    | none => exact ⟨fun _ => .none, fun _ => rfl⟩
    | some w => exact ⟨fun h => absurd h.symm (Value.identity_some_ne_none w), fun h => nomatch h⟩
  | some v =>
    cases o' with
    | none => exact ⟨fun h => absurd h (Value.identity_some_ne_none v), fun h => nomatch h⟩
    | some w =>
      rw [Value.identity_eq_iff_indistinct]
      exact ⟨.some, fun h => by cases h; assumption⟩

/-- **Dropping records by an attribute.** A record is kept unless an earlier one has an indistinct
value for the attribute, or neither has one; the others keep their order, and nothing is dropped the
second time. When identities tell all the values, a record is dropped only after one with an equal
value. A value that they do not tell is indistinct from one that differs from it. -/
theorem uniqueBy_keepsFirst (c : Collection) (name : String) :
    let value (r : Record) := c.model.get? r name
    KeepsFirst (fun s r => Rel Value.Indistinct (value s) (value r)) c.items
      (c.uniqueBy name).items ∧
    (c.uniqueBy name).uniqueBy name = c.uniqueBy name ∧
    ((∀ r ∈ c.items, ∀ v ∈ value r, v.WellFormed ∧ v.isTold = true) →
      KeepsFirst (fun s r => Rel (fun v w => v.Indistinct w ∧ v.same w = true) (value s) (value r))
        c.items (c.uniqueBy name).items) ∧
    ∀ v : Value, v.WellFormed → v.isTold = false →
      ∃ w : Value, w.WellFormed ∧ v.Indistinct w ∧ w.same v = false := by
  intro value
  have hkeeps : KeepsFirst (fun s r => Rel Value.Indistinct (value s) (value r)) c.items
      (c.uniqueBy name).items := by
    refine (keepsFirst_distinctOn c.items).congr fun s _ r _ => ?_
    rw [← identity_eq_iff_rel]
    exact ⟨fun ⟨n, hs, hr⟩ => Option.some.inj (hs.trans hr.symm), fun h => ⟨_, rfl, h ▸ rfl⟩⟩
  refine ⟨hkeeps, congrArg (Collection.mk c.model) (distinctOn_distinctOn c.items), fun htold => ?_,
    fun v => Value.exists_indistinct⟩
  refine hkeeps.congr fun s hs r hr => ⟨fun h => ?_, fun h => ?_⟩
  · generalize hv : value s = o at h
    generalize hw : value r = o' at h
    cases h with
    | none => exact .none
    | some h =>
      obtain ⟨hvf, hvt⟩ := htold s hs _ hv
      obtain ⟨hwf, hwt⟩ := htold r hr _ hw
      exact .some ⟨h, Value.same_of_indistinct hvf hwf hvt hwt h⟩
  · generalize value s = o at h
    generalize value r = o' at h
    cases h with
    | none => exact .none
    | some h => exact .some h.1

/-- Values that identities tell: a float and a text that read alike, an object whose members stand
in another order, and missing ones. -/
theorem uniqueBy_keepsFirst_prices :
    let m : Model := { table := "items" }
    let item (n : Int64) (v : Value) : Record := m.hydrate (.ofList [("id", .int n), ("v", v)])
    let pair (a b : String × Value) : Value := .object [a, b]
    let half : Value := .float ⟨0x3FE0000000000000⟩
    let c : Collection := ⟨m, [item 1 half, item 2 (.text "0.5"), item 3 half,
      m.hydrate (.ofList [("id", .int 4)]), item 5 (pair ("a", half) ("b", .null)),
      item 6 (pair ("b", .null) ("a", half)), m.hydrate (.ofList [("id", .int 7)])]⟩
    (∀ r ∈ c.items, ∀ v ∈ c.model.get? r "v", v.WellFormed ∧ v.isTold = true) ∧
    KeepsFirst (fun s r => Rel (fun v w => v.Indistinct w ∧ v.same w = true)
      (c.model.get? s "v") (c.model.get? r "v")) c.items (c.uniqueBy "v").items ∧
    (c.uniqueBy "v").keys.map Value.plain = ["1", "2", "4", "5"] := by
  intro m item pair half c
  have hvalues : c.items.map (c.model.get? · "v") = [some half, some (.text "0.5"), some half, none,
      some (pair ("a", half) ("b", .null)), some (pair ("b", .null) ("a", half)), none] := rfl
  have htold : ∀ r ∈ c.items, ∀ v ∈ c.model.get? r "v", v.WellFormed ∧ v.isTold = true := by
    have hall : ∀ o ∈ c.items.map (c.model.get? · "v"), ∀ v ∈ o,
        v.WellFormed ∧ v.isTold = true := by
      rw [hvalues]
      simp only [List.forall_mem_cons, Option.mem_def, Option.some.injEq, forall_eq', pair, half,
        Value.WellFormed, Value.FieldsFormed, reduceCtorEq, List.not_mem_nil, false_imp_iff,
        implies_true]
      decide
    exact fun r hr => hall _ (List.mem_map_of_mem hr)
  exact ⟨htold, (uniqueBy_keepsFirst c "v").2.2.1 htold, by decide +kernel⟩

/-- Two arrays, each of an infinity, that differ in its sign: both have the document `[null]`, and
the second record is dropped. -/
theorem uniqueBy_loses_record :
    let m : Model := { table := "users" }
    let value (negative : Bool) : Value := .array [.float (Double.infinity negative)]
    let item (n : Int64) (v : Value) : Record := m.hydrate (.ofList [("id", .int n), ("v", v)])
    let c : Collection := ⟨m, [item 1 (value false), item 2 (value true)]⟩
    c.pluck "v" = [value false, value true] ∧
    (value false).same (value true) = false ∧ (value true).same (value false) = false ∧
    (c.uniqueBy "v").keys.map Value.plain = ["1"] := by
  intro m value item c
  exact ⟨rfl, by decide, by decide, by decide +kernel⟩

end Collection

end ActiveRow
