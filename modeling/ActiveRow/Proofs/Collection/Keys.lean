import ActiveRow.Proofs.Collection.Repeats
import ActiveRow.Proofs.Value.Identity

/-!
# Looking up by key

A record is found by its key in two ways: the key is compared with the one that is looked for, or
their identities are. Keys are told by their identities, so both find the same records.

* `Collection.lookups_by_key`: what every look-up by key finds, and what is left of repeated keys.
-/

namespace ActiveRow

namespace Record

/-- Whether the record has one of these keys. -/
def hasOneOf (keys : List Value) (r : Record) : Bool :=
  r.key?.any fun key => keys.any fun k => k.same key

/-- Two records of one key. A null is no key. -/
def SharesKey (s r : Record) : Prop :=
  ∃ k k', s.key? = some k ∧ r.key? = some k' ∧ k.isNull = false ∧ k.same k' = true

theorem knownKey?_eq_some {r : Record} {k : Value} :
    r.knownKey? = some k ↔ r.key? = some k ∧ k.isNull = false := by
  simp [knownKey?, Option.filter_eq_some_iff]

end Record

namespace Collection

/-- Where these records have a key, it is a null, a boolean, an integer, a text or an identifier. -/
def PlainKeys (items : List Record) : Prop := ∀ r ∈ items, r.key?.all Value.isKey = true

theorem PlainKeys.isKey {items : List Record} (h : PlainKeys items) {r : Record} (hr : r ∈ items)
    {k : Value} (hk : r.key? = some k) : k.isKey = true :=
  (Option.all_eq_true _ _).1 (h r hr) k hk

variable {c : Collection}

/-! ### Selecting by key -/

theorem hasKeyAmong_eq {items : List Record} (h : PlainKeys items) {r : Record} (hr : r ∈ items)
    (keys : List Value) : hasKeyAmong keys r = r.hasOneOf keys := by
  rw [hasKeyAmong, Record.hasOneOf, Bool.eq_iff_iff, List.contains_iff_mem, List.mem_map]
  cases hk : r.key? with
  | none => simpa using fun k _ => Value.identity_some_ne_none k
  | some key =>
    simp only [Option.any_some, List.any_eq_true]
    exact exists_congr fun k => and_congr_right fun _ =>
      Value.identity_eq_iff_same (h.isKey hr hk) k

theorem items_whereIn (hc : PlainKeys c.items) (keys : List Value) :
    (c.whereIn keys).items = c.items.filter (Record.hasOneOf keys) :=
  List.filter_congr fun _ hr => hasKeyAmong_eq hc hr keys

theorem items_whereNotIn (hc : PlainKeys c.items) (keys : List Value) :
    (c.whereNotIn keys).items = c.items.filter fun r => !r.hasOneOf keys :=
  List.filter_congr fun _ hr => by rw [hasKeyAmong_eq hc hr]

theorem find?_eq_head? (hc : PlainKeys c.items) (k : Value) :
    c.find? k = (c.whereIn [k]).items.head? := by
  rw [items_whereIn hc, find?, ← List.head?_filter]
  refine congrArg List.head? (List.filter_congr fun r hr => ?_)
  cases hkey : r.key? with
  | none => simp [Record.hasOneOf, hkey]
  | some key =>
    have hisKey := hc.isKey hr hkey
    have hcomm : key.same k = k.same key := by
      rw [Bool.eq_iff_iff, Value.same_of_isKey hisKey, Value.same_key_iff hisKey, eq_comm]
    simpa [Record.hasOneOf, hkey] using hcomm

theorem contains_iff (hc : PlainKeys c.items) (k : Value) :
    c.contains k = true ↔ (c.whereIn [k]).items ≠ [] := by
  rw [contains, find?_eq_head? hc, Option.isSome_iff_ne_none, ne_eq, List.head?_eq_none_iff]

/-! ### Repeated keys -/

theorem keepsFirst_unique (hc : PlainKeys c.items) :
    KeepsFirst Record.SharesKey c.items c.unique.items := by
  refine (keepsFirst_distinctOn c.items).congr fun s _ r hr => ?_
  constructor
  · rintro ⟨n, hs, hn⟩
    obtain ⟨k, hk, rfl⟩ := Option.map_eq_some_iff.1 hs
    obtain ⟨k', hk', hident⟩ := Option.map_eq_some_iff.1 hn
    rw [Record.knownKey?_eq_some] at hk hk'
    exact ⟨k, k', hk.1, hk'.1, hk.2,
      (Value.identity_eq_iff_same (hc.isKey hr hk'.1) k).1 hident.symm⟩
  · rintro ⟨k, k', hk, hk', hnull, hsame⟩
    obtain rfl := (Value.same_key_iff (hc.isKey hr hk') k).1 hsame
    exact ⟨identity (some k), by simp [Record.knownKey?_eq_some.2 ⟨hk, hnull⟩],
      by simp [Record.knownKey?_eq_some.2 ⟨hk', hnull⟩]⟩

theorem unique_unique (c : Collection) : c.unique.unique = c.unique :=
  congrArg (fun items => { c with items }) (distinctOn_distinctOn c.items)

theorem plainKeys_unique (hc : PlainKeys c.items) : PlainKeys c.unique.items :=
  fun r hr => hc r ((keepsFirst_unique hc).sublist.subset hr)

theorem find?_unique (hc : PlainKeys c.items) (k : Value) : c.unique.find? k = c.find? k := by
  refine (keepsFirst_unique hc).find?_eq fun s r ⟨key, key', hs, hr, _, hsame⟩ hk => ?_
  rw [hr] at hk
  rw [hs]
  exact Value.same_trans hsame hk

/-- Records that are selected by one key share it. -/
theorem sharesKey_of_hasOneOf {items : List Record} (h : PlainKeys items) {s r : Record}
    (hs : s ∈ items) {k : Value} (hk : k.isNull = false) (hsk : s.hasOneOf [k] = true)
    (hrk : r.hasOneOf [k] = true) : s.SharesKey r := by
  simp only [Record.hasOneOf, Option.any_eq_true, List.any_cons, List.any_nil, Bool.or_false]
    at hsk hrk
  obtain ⟨key, hkey, hsame⟩ := hsk
  obtain ⟨key', hkey', hsame'⟩ := hrk
  obtain rfl := (Value.same_key_iff (h.isKey hs hkey) k).1 hsame
  exact ⟨k, key', hkey, hkey', hk, hsame'⟩

theorem length_whereIn_unique_le (hc : PlainKeys c.items) {k : Value} (hk : k.isNull = false) :
    (c.unique.whereIn [k]).items.length ≤ 1 := by
  have hunique := plainKeys_unique hc
  rw [items_whereIn hunique]
  have hpairs := (keepsFirst_unique hc).pairwise.filter (Record.hasOneOf [k])
  match hfound : c.unique.items.filter (Record.hasOneOf [k]) with
  | [] | [_] => simp
  | s :: r :: rest =>
    rw [hfound] at hpairs
    obtain ⟨hs, hsk⟩ := List.mem_filter.1 (hfound ▸ List.mem_cons_self : s ∈ _)
    obtain ⟨-, hrk⟩ := List.mem_filter.1
      (hfound ▸ List.mem_cons_of_mem _ List.mem_cons_self : r ∈ _)
    have hshare := sharesKey_of_hasOneOf hunique hs hk hsk hrk
    exact absurd hshare (List.rel_of_pairwise_cons hpairs List.mem_cons_self)

/-- **Look-ups by key** agree, whether they compare keys or identities. Selecting takes the records
that have one of the keys and leaves the others; the first of them is found. Of each key that is not
null the first record is unique, and every record without one. Then a key is found where it was, and
once. -/
theorem lookups_by_key (c : Collection) (hc : PlainKeys c.items) :
    (∀ keys,
      (c.whereIn keys).items = c.items.filter (Record.hasOneOf keys) ∧
      c.only keys = c.whereIn keys ∧
      (c.whereNotIn keys).items = c.items.filter (fun r => !r.hasOneOf keys) ∧
      c.except keys = c.whereNotIn keys) ∧
    (∀ k, c.find? k = (c.whereIn [k]).items.head? ∧
      (c.contains k = true ↔ (c.whereIn [k]).items ≠ [])) ∧
    KeepsFirst Record.SharesKey c.items c.unique.items ∧
    c.unique.unique = c.unique ∧
    ∀ k, k.isNull = false →
      c.unique.find? k = c.find? k ∧ (c.unique.whereIn [k]).items.length ≤ 1 :=
  ⟨fun keys => ⟨items_whereIn hc keys, rfl, items_whereNotIn hc keys, rfl⟩,
    fun k => ⟨find?_eq_head? hc k, contains_iff hc k⟩, keepsFirst_unique hc, unique_unique c,
    fun k hk => ⟨find?_unique hc k, length_whereIn_unique_le hc hk⟩⟩

/-- Keys of all kinds, among them an integer and a text that read alike, an integer twice, two nulls
and two that are missing. -/
theorem lookups_by_mixed_keys :
    let m : Model := { table := "items" }
    let item (n : Int64) (id : Value) : Record := m.hydrate (.ofList [("id", id), ("n", .int n)])
    let c : Collection := ⟨m, [item 1 (.int 1), item 2 (.text "1"), item 3 .null, item 4 (.int 1),
      m.hydrate (.ofList [("n", .int 5)]), item 6 (.bool true), item 7 .null,
      item 8 (.uuid (.ofNat 1)), m.hydrate (.ofList [("n", .int 9)]), item 10 (.text "true")]⟩
    let counted (c : Collection) := (c.pluck "n").map Value.plain
    PlainKeys c.items ∧ (Value.int 1).isNull = false ∧
    counted (c.only [.int 1, .null]) = ["1", "3", "4", "7"] ∧
    counted (c.except [.int 1, .null]) = ["2", "5", "6", "8", "9", "10"] ∧
    counted c.unique = ["1", "2", "3", "5", "6", "7", "8", "9", "10"] ∧
    c.unique.unique = c.unique ∧
    c.unique.find? (.int 1) = c.find? (.int 1) ∧
    (c.unique.whereIn [.int 1]).items.length ≤ 1 := by
  intro m item c counted
  have hc : PlainKeys c.items := by unfold PlainKeys; decide +kernel
  obtain ⟨-, -, -, hunique, hfound⟩ := lookups_by_key c hc
  exact ⟨hc, rfl, by decide +kernel, by decide +kernel, by decide +kernel, hunique,
    hfound (.int 1) rfl⟩

end Collection

end ActiveRow
