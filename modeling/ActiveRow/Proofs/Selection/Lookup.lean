import ActiveRow.Proofs.Predicate.Fork
import ActiveRow.Proofs.Selection.Scope
import ActiveRow.Selection.Fetch

/-!
# Looking rows up by their key

A lookup adds a test for the key behind the predicate of a selection or of a query, as one more
clause. It does not put the predicate into a group first, so it finds no other key exactly when the
predicate is not forked.

* `looksUp_selection`, `looksUp_query`: which rows pass the query that a lookup runs.
* `sends_lookup`: the one statement that a lookup sends of its own asks for such a query.
-/

namespace ActiveRow

open Predicate Script

/-- The rows that pass `q` are looked up by a test for the key in the rows of `base`. When the
predicate of `base` is not forked, they pass this predicate and the test, and nothing else is asked
but what the scope asks. When it is forked, a row passes that fails the test. -/
structure LooksUp (base : Query) (key : Test) (scope : Verdict → Prop) (q : Query) : Prop where
  table : q.table = base.table
  joins : q.joins = base.joins
  exact : ¬Clause.Forked base.wheres → ∀ v : Verdict,
    v.passes q.wheres ↔ v.passes base.wheres ∧ v.holds key ∧ scope v
  strays : Clause.Forked base.wheres → key ∉ Clause.listTests base.wheres →
    ∃ v : Verdict, v.passes q.wheres ∧ ¬v.holds key

section

variable {key : Test} (hk : hasRaw key = false)

include hk in
/-- A query to which the test is added. -/
theorem looksUp_query {q : Query}
    (hr : ∀ link t, Clause.test link t ∈ q.wheres → hasRaw t = false) (n : UInt64) :
    LooksUp q key (fun _ => True) ((q.filter .and key).take n) := by
  have hw : ((q.filter .and key).take n).wheres = q.wheres ++ [.test .and key] :=
    q.wheres_filter .and key
  refine ⟨q.table_filter .and key, q.joins_filter .and key, fun hf v => ?_, fun hf ht => ?_⟩
  · rw [hw, v.passes_append_and hf hr hk, and_true]
  · refine ⟨.allBut key, ?_, Verdict.not_holds_allBut key⟩
    rw [hw]
    exact Verdict.passes_append_of_forked hf ht .and

variable {υ : Type} {s : Selection (Script υ)}

include hk in
/-- A selection to which the test is added; its scope is added behind. -/
theorem looksUp_selection (hnull : ∀ column negated, key ≠ .isNull column negated)
    (hr : ∀ link t, Clause.test link t ∈ s.query.wheres → hasRaw t = false) {q : Query}
    (hq : (s.refine (·.filter .and key)).Narrows s.trashed q) :
    LooksUp s.query key s.InScope q := by
  let s' := s.refine (·.filter .and key)
  have hw : s'.query.wheres = s.query.wheres ++ [.test .and key] := s.query.wheres_filter .and key
  have hr' : ∀ link t, Clause.test link t ∈ s'.query.wheres → comparesRaw t = false := by
    intro link t ht
    rw [hw, List.mem_append, List.mem_singleton] at ht
    rcases ht with ht | ht
    · exact comparesRaw_eq_false (hr link t ht)
    · cases ht
      exact comparesRaw_eq_false hk
  have hpasses : ∀ v : Verdict, v.passes q.wheres ↔
      v.passes (s.query.wheres ++ [.test .and key]) ∧ s.InScope v := by
    intro v
    rw [hq.wheres, ← s.inScope_refine (f := (·.filter .and key)) (s.query.joins_filter .and key) v,
      ← hw]
    exact s'.passes_toQuery hr' v
  refine ⟨hq.table.trans (s.query.table_filter .and key),
    hq.joins.trans (s.query.joins_filter .and key), fun hf v => ?_, fun hf ht => ?_⟩
  · rw [hpasses v, v.passes_append_and hf hr hk, and_assoc]
  · -- the mark of deletion is another test, so the scope is no obstacle
    have hscope : s.InScope (.allBut key) := by
      intro _
      cases s.trashed with
      | «include» => trivial
      | exclude => exact (Verdict.holds_allBut _ _).2 (hnull _ _).symm
      | only => exact (Verdict.holds_allBut _ _).2 (hnull _ _).symm
    exact ⟨.allBut key, (hpasses _).2 ⟨Verdict.passes_append_of_forked hf ht .and, hscope⟩,
      Verdict.not_holds_allBut key⟩

end

/-! ### Lookups -/

/-- The operations that look rows up by their key. -/
inductive Lookup (σ : Type) where
  | find? (s : Selection σ) (key : Value)
  | find (s : Selection σ) (key : Value)
  | findMany (s : Selection σ) (keys : List Value)
  /-- A row of a query, which has no model. -/
  | row (q : Query) (key : Value)

namespace Lookup

variable {σ : Type}

/-- Runs a lookup; its result is not kept. -/
def run (c : Connection σ) : Lookup σ → Action σ Unit
  | find? s key => do let _ ← s.find? c key
  | find s key => do let _ ← s.find c key
  | findMany s keys => do let _ ← s.findMany c keys
  | row q key => do let _ ← q.find? c key

/-- The query whose rows are looked up. -/
def base : Lookup σ → Query
  | find? s _ | find s _ | findMany s _ => s.query
  | row q _ => q

/-- The test for the key. -/
def keyTest : Lookup σ → Test
  | find? s key | find s key => .compare (s.qualify s.model.primaryKey) "=" (.value key)
  | findMany s keys => .among (s.qualify s.model.primaryKey) keys false
  | row _ key => .compare Query.defaultKey "=" (.value key)

theorem hasRaw_keyTest (op : Lookup σ) : hasRaw op.keyTest = false := by cases op <;> rfl

theorem keyTest_ne_isNull (op : Lookup σ) (column : String) (negated : Bool) :
    op.keyTest ≠ .isNull column negated := by cases op <;> simp [keyTest]

/-- What the scope of the selection asks of a row. -/
def InScope (v : Verdict) : Lookup σ → Prop
  | find? s _ | find s _ | findMany s _ => s.InScope v
  | row _ _ => True

/-- A request for the rows that are looked up: the rows that pass its query are those that pass the
words which it spells, as it is for the query whose rows are looked up. -/
def Asked (op : Lookup σ) (name : String) (d : Dialect) (e : Sent) : Prop :=
  ∃ (q : Query) (ws own : List (Word Test)),
    e.adapter = name ∧ q.selectStatement d = .ok ⟨e.sql, e.bindings⟩ ∧
      q.TestedBy ws ∧ op.base.TestedBy own ∧
        LooksUp op.base op.keyTest (fun v => op.InScope v) q

theorem asks_asked {op : Lookup σ} {name : String} {d : Dialect} {q : Query}
    (h : LooksUp op.base op.keyTest (fun v => op.InScope v) q) :
    Asks (op.Asked name d) name d q .select := fun _ hst =>
  ⟨q, _, _, rfl, hst, q.testedBy, op.base.testedBy, h⟩

/-- What the loaders of the relations to load send satisfies `Q`. -/
def Loads {υ : Type} (c : Connection (Script υ)) (Q : Sent → Prop) : Lookup (Script υ) → Prop
  | find? s _ | find s _ | findMany s _ => s.Loads c Q
  | row _ _ => True

end Lookup

section

variable {υ : Type} {driver name : String} {d : Dialect} {scope : Except Fault (Option String)}
variable {Q : Sent → Prop}

/-- The first record of a selection that passes a test for its key. -/
theorem sends_first_keyed {s : Selection (Script υ)} (key : Test) {P : Sent → Prop}
    (hl : s.Loads (connection driver d name scope) Q)
    (h : ∀ q, (s.refine (·.filter .and key)).Narrows s.trashed q → Asks P name d q .select) :
    SendsEach [P] Q ((s.refine (·.filter .and key)).first? (connection driver d name scope)) :=
  (Selection.sends_records (s := (s.refine (·.filter .and key)).refine (·.take 1)) hl
    (h _ (Selection.narrows_refine rfl rfl rfl))).each_then fun _ => .pure _

/-- **A lookup stays with the key unless the predicate is forked.** With no raw text at the top of
the predicate, the one statement that a lookup sends of its own asks for the rows of this key that
pass the predicate and are in scope when the predicate is not forked, and for a row of another key
too when it is. When the lookup gives a result, it has sent it. -/
theorem sends_lookup (op : Lookup (Script υ))
    (hr : ∀ link t, Clause.test link t ∈ op.base.wheres → hasRaw t = false)
    (hl : op.Loads (connection driver d name scope) Q) :
    SendsEach [op.Asked name d] Q (op.run (connection driver d name scope)) := by
  have hk := op.hasRaw_keyTest
  have hnull := op.keyTest_ne_isNull
  cases op with
  | find? s key =>
    refine (sends_first_keyed _ hl fun q hq => ?_).each_then fun _ => .pure _
    exact Lookup.asks_asked (looksUp_selection hk hnull hr hq)
  | find s key =>
    refine Sends.each_then ?_ fun _ => .pure _
    refine (sends_first_keyed _ hl fun q hq => ?_).each_then fun r => ?_
    · exact Lookup.asks_asked (looksUp_selection hk hnull hr hq)
    · cases r with
      | some r => exact .pure r
      | none => exact .ofExcept (.error _)
  | findMany s keys =>
    refine (Selection.sends_records (s := s.refine _) hl ?_).each_then fun _ => .pure _
    exact Lookup.asks_asked (looksUp_selection hk hnull hr (Selection.narrows_scopedTo _))
  | row q key =>
    refine (sends_first ?_).each_then fun _ => .pure _
    exact Lookup.asks_asked (looksUp_query hk hr 1)

/-- Records of posts that are looked up by two keys, behind an alternative in a group. -/
theorem sends_lookup_posts :
    let s : Selection (Script Unit) :=
      (Selection.all { table := "posts", softDeletes := true }).refine fun q =>
        q.nest .and ((Query.whereEq {} "a" (.int 1)).filter .or (.isNull "b" false))
    let op : Lookup (Script Unit) := .findMany s [.int 5, .int 6]
    let c : Connection (Script Unit) := connection "pg" .postgres "main" (.ok none)
    (∀ link t, Clause.test link t ∈ op.base.wheres → hasRaw t = false) ∧
      op.Loads c (fun _ => False) ∧ ¬Clause.Forked op.base.wheres ∧
        SendsEach [op.Asked "main" .postgres] (fun _ => False) (op.run c) := by
  intro s op c
  have hr : ∀ link t, Clause.test link t ∈ op.base.wheres → hasRaw t = false := by
    intro link t ht
    have h : Clause.test link t ∈ [Clause.group .and
        ((Query.whereEq {} "a" (.int 1)).filter .or (.isNull "b" false)).wheres] := ht
    cases List.mem_singleton.1 h
  have hl : op.Loads c (fun _ => False) := fun _ h => absurd h List.not_mem_nil
  exact ⟨hr, hl, by decide, sends_lookup op hr hl⟩

/-- Looking for the user 5 behind an alternative, a row passes that has another key. -/
theorem find_strays :
    let test : String → Int64 → Test := fun column n => .compare column "=" (.value (.int n))
    let own : List Clause := [.test .and (test "a" 1), .test .or (test "b" 2)]
    let key : Test := test "id" 5
    let s : Selection (Script Unit) :=
      (Selection.all { table := "users" }).refine fun q => { q with wheres := own }
    let q : Query := { Query.on "users" with wheres := own ++ [.test .and key], limit := some 1 }
    let sent : Sent :=
      ⟨"main", "SELECT * FROM users WHERE a = $1 OR b = $2 AND id = $3 LIMIT 1",
        [.int 1, .int 2, .int 5]⟩
    ((s.find? (connection "pg" .postgres "main" (.ok none)) (.int 5)).from_ (start ())).2.log =
        [sent] ∧
      q.selectStatement .postgres = .ok ⟨sent.sql, sent.bindings⟩ ∧
        ∃ v : Verdict, v.passes q.wheres ∧ ¬v.holds key := by
  intro test own key s q sent
  have hlog : ((s.find? (connection "pg" .postgres "main" (.ok none)) (.int 5)).from_
      (start ())).2.log = [sent] := by rfl
  have hsql : q.selectStatement .postgres = .ok ⟨sent.sql, sent.bindings⟩ := by rfl
  have hforked : Clause.Forked own := by decide
  have hnew : key ∉ Clause.listTests own := by
    simp [own, key, test, Clause.listTests, Clause.tests]
  exact ⟨hlog, hsql, .allBut key, Verdict.passes_append_of_forked hforked hnew .and,
    Verdict.not_holds_allBut key⟩

end

end ActiveRow
