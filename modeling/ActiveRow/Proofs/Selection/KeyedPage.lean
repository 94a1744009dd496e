import ActiveRow.Proofs.Selection.Scope

/-!
# The query of a chunk by key

A chunk is asked for in the order of keys, from behind the last key of the chunk before it, whatever
order and offset the selection has.

* `passes_keyedPage`: a row passes the query of a chunk when it passes the selection and its key
  lies behind the last one.
* `layout_keyedPage`: what the statement of a chunk says.
* `lastKey_eq`: the next chunk starts from the last of the keys.
-/

namespace ActiveRow.Selection

open Predicate

variable {σ : Type} (s : Selection σ) (size : UInt64)

/-- The column of the key, as the statements of a selection name it. -/
abbrev keyColumn : String := s.qualify s.model.primaryKey

/-- The test for keys beyond a value. -/
abbrev beyond (v : Value) : Test := .compare s.keyColumn ">" (.value v)

/-- The query of chunks before a test for the last key is added. -/
def inKeyOrder : Query :=
  { (s.query.reorder.orderBy s.keyColumn .asc).take size with offset := none }

theorem query_keyedPage (last : Option Value) : ∃ ws invalid, (s.keyedPage size last).query =
    { s.inKeyOrder size with wheres := ws, firstInvalid := invalid } := by
  cases last with
  | none => exact ⟨_, _, rfl⟩
  | some v =>
    obtain ⟨invalid, h⟩ := (s.inKeyOrder size).isolate.filter_eq .and (s.beyond v)
    refine ⟨(s.inKeyOrder size).isolate.wheres ++ [.test .and (s.beyond v)], invalid, h.trans ?_⟩
    rw [isolate_eq]

theorem toQuery_keyedPage (last : Option Value) :
    (s.keyedPage size last).toQuery.orders = [.column s.keyColumn .asc] ∧
      (s.keyedPage size last).toQuery.limit = some size ∧
        (s.keyedPage size last).toQuery.offset = none := by
  obtain ⟨ws, invalid, h⟩ := s.query_keyedPage size last
  rw [toQuery, scopedTo_eq, h]
  exact ⟨rfl, rfl, rfl⟩

/-- The pieces of a statement for the first rows in the order of keys that pass these words. -/
def keyedPieces (table : String) (ws : List (Word Test)) : List Piece :=
  [.text "SELECT "] ++ (if s.query.distinct then [.text "DISTINCT "] else []) ++
    s.query.columnPieces ++ [.text " FROM ", .text table] ++ s.query.joins.flatMap Join.pieces ++
    spelled " WHERE " ws ++ s.query.groupPieces ++ spelled " HAVING " (written s.query.havings) ++
    [.text " ORDER BY ", .text s.keyColumn, .text " ", .text "ASC",
      .text (" LIMIT " ++ Nat.repr size.toNat)]

/-- **The statement of a chunk.** Of all that the selection says, only the order and the extent are
replaced, and the words say which rows are asked for. -/
theorem layout_keyedPage (last : Option Value) (d : Dialect) (table : String) :
    Form.select.layout d table (s.keyedPage size last).toQuery =
      s.keyedPieces size table (written (s.keyedPage size last).toQuery.wheres) := by
  obtain ⟨ws, invalid, h⟩ := s.query_keyedPage size last
  have hquery : (s.keyedPage size last).toQuery = { s.inKeyOrder size with
      wheres := (s.keyedPage size last).toQuery.wheres, firstInvalid := invalid } := by
    conv_lhs => rw [toQuery, scopedTo_eq, h]
    rfl
  rw [(s.keyedPage size last).toQuery.testedBy.layout]
  generalize written (s.keyedPage size last).toQuery.wheres = words
  rw [hquery]
  have hend : (s.inKeyOrder size).orderPieces ++ (s.inKeyOrder size).extentPieces d =
      [.text " ORDER BY ", .text s.keyColumn, .text " ", .text "ASC",
        .text (" LIMIT " ++ Nat.repr size.toNat)] := rfl
  rw [keyedPieces, ← hend, ← List.append_assoc]
  rfl

theorem table_keyedPage (last : Option Value) :
    (s.keyedPage size last).toQuery.table = s.query.table := by
  obtain ⟨ws, invalid, h⟩ := s.query_keyedPage size last
  rw [toQuery, scopedTo_eq, h]
  rfl

/-- **The query of a chunk** passes the rows in scope whose key lies beyond the last one. -/
theorem passes_keyedPage
    (hr : ∀ link t, Clause.test link t ∈ s.query.wheres → comparesRaw t = false) (v : Verdict)
    (last : Option Value) : v.passes (s.keyedPage size last).toQuery.wheres ↔
      v.passes s.toQuery.wheres ∧ ∀ k ∈ last, v.holds (s.beyond k) := by
  cases last with
  | none =>
    have h : (s.keyedPage size none).toQuery.wheres = s.toQuery.wheres :=
      s.wheres_scopedTo_refine (f := fun _ => s.inKeyOrder size) rfl rfl s.trashed
    rw [h]
    simp
  | some k =>
    let t := s.beyond k
    let s' := s.keyedPage size (some k)
    have hw : s'.query.wheres = (s.inKeyOrder size).isolate.wheres ++ [.test .and t] :=
      Query.wheres_filter _ .and t
    have hj : s'.query.joins = s.query.joins :=
      (Query.joins_filter _ .and t).trans (joins_isolate (s.inKeyOrder size))
    have hr' : ∀ link u, Clause.test link u ∈ s'.query.wheres → comparesRaw u = false := by
      intro link u hu
      rw [hw, List.mem_append, List.mem_singleton] at hu
      rcases hu with hu | hu
      · rcases (s.inKeyOrder size).wheres_isolate with h | ⟨h, -⟩
        · rw [h, List.mem_singleton] at hu
          cases hu
        · exact hr link u (h ▸ hu)
      · cases hu
        rfl
    have hscope : s'.InScope v ↔ s.InScope v :=
      s.inScope_refine (f := fun _ => (s.inKeyOrder size).isolate.filter .and t) hj v
    have hpage : v.passes s'.query.wheres ↔ v.passes s.query.wheres ∧ v.holds t := by
      rw [hw]
      exact v.passes_isolate (s.inKeyOrder size) rfl hr
    rw [s'.passes_toQuery hr', s.passes_toQuery hr, hscope, hpage, and_right_comm]
    simp [t]

/-- Loading does not depend on the query. -/
theorem loadAll_refine (f : Query → Query) (c : Connection σ) : ∀ (names : List String) records,
    (s.refine f).loadAll c names records = s.loadAll c names records
  | [], _ => rfl
  | n :: names, records => by
    rw [loadAll, loadAll]
    simp only [loadAll_refine f c names]
    rfl

theorem hydrate_refine (f : Query → Query) (c : Connection σ) (rows : List Row) :
    (s.refine f).hydrate c rows = s.hydrate c rows := by
  unfold hydrate
  simp only [loadAll_refine s f c]
  rfl

variable {κ : Type} {ks : List κ} {records : Collection}

/-- The next chunk starts from the last key, when keys are shown. -/
theorem lastKey_eq {value : κ → Value} (hne : ks ≠ [])
    (hkeys : records.items.map Record.knownKey? = ks.map fun k => some (value k)) :
    s.lastKey records = .ok (value (ks.getLast hne)) := by
  have hlast :
      records.items.getLast?.map Record.knownKey? = some (some (value (ks.getLast hne))) := by
    rw [← List.getLast?_map, hkeys, List.getLast?_map, List.getLast?_eq_some_getLast hne]
    rfl
  obtain ⟨r, hr, hkey⟩ := Option.map_eq_some_iff.1 hlast
  rw [lastKey, Collection.last?, hr, Option.bind_some, hkey]

theorem lastKey_hidden
    (hkeys : records.items.map Record.knownKey? = ks.map fun _ => none) :
    ∃ cause, s.lastKey records = .error cause := by
  have hnone : records.items.getLast?.bind Record.knownKey? = none := by
    cases hl : records.items.getLast? with
    | none => rfl
    | some r =>
      have hin : r.knownKey? ∈ ks.map fun _ => none := by
        rw [← hkeys]
        exact List.mem_map_of_mem (List.mem_of_getLast? hl)
      obtain ⟨_, _, hkey⟩ := List.mem_map.1 hin
      exact hkey.symm
  exact ⟨_, by rw [lastKey, Collection.last?, hnone]⟩

end ActiveRow.Selection
