import ActiveRow.Proofs.Compilation.CheckedCalls
import ActiveRow.Proofs.Predicate.Fork
import ActiveRow.Proofs.Selection.KeyedPage

/-!
# Raw text in comparisons

Raw text may be read with an OR at its top. A selection puts its predicate into parentheses before
it adds a test, when a clause at the top of the predicate is an alternative or raw text; a
comparison with raw text does not count.

* `wheres_of_appends`: the predicates that a selection adds tests to.
* `testsBehind`: what is written then, and which raw texts let rows pass that fail the tests.
-/

namespace ActiveRow

/-! ### What is written -/

namespace Clause

/-- Clauses in one group, when one of them may be an alternative. -/
def isolated (cs : List Clause) : List Clause :=
  if cs.any isLoose then [.group .and cs] else cs

/-- The pieces of clauses without a keyword. -/
def pieces (cs : List Clause) : List Piece := (listTokens true cs).flatMap Token.pieces

/-- The pieces of tests behind a predicate. -/
def conjoined (tests : List Test) : List Piece :=
  tests.flatMap fun t => [.text " ", .text "AND", .text " "] ++ t.pieces

theorem listTokens_append (b : List Clause) : ∀ (a : List Clause) (first : Bool),
    listTokens first (a ++ b) = listTokens first a ++ listTokens (first && areVacant a) b
  | [], first => by simp [listTokens, areVacant]
  | c :: a, first => by
    rw [List.cons_append, listTokens, listTokens, areVacant]
    by_cases hc : c.isVacant = true
    · rw [if_pos hc, if_pos hc, listTokens_append b a first, hc, Bool.true_and]
    · have hc : c.isVacant = false := by simpa using hc
      simp [hc, listTokens_append b a false]

theorem flatMap_listTokens_tests (tests : List Test) :
    (listTokens false (tests.map (.test .and))).flatMap Token.pieces = conjoined tests := by
  induction tests with
  | nil => rfl
  | cons t tests ih =>
    rw [conjoined, List.flatMap_cons, List.map_cons, listTokens]
    simp [isVacant, tokens, link, Token.pieces, Connector.sql, ih, conjoined]

/-- Tests behind a predicate that is not vacant. -/
theorem listPieces_append_tests (keyword : String) {cs : List Clause} (hcs : areVacant cs = false)
    (tests : List Test) : listPieces keyword (cs ++ tests.map (.test .and)) =
      .text keyword :: pieces cs ++ conjoined tests := by
  have hall : areVacant (cs ++ tests.map (.test .and)) = false := by
    rw [← Bool.not_eq_true, areVacant_iff] at hcs ⊢
    rw [listTests_append]
    exact fun h => hcs (List.append_eq_nil_iff.1 h).1
  rw [listPieces, hall, listTokens_append, hcs, List.flatMap_append, Bool.and_false,
    flatMap_listTokens_tests]
  rfl

theorem areVacant_group (link : Connector) (cs : List Clause) :
    areVacant [.group link cs] = areVacant cs := by
  simp [areVacant, isVacant]

theorem pieces_group (link : Connector) {cs : List Clause} (hcs : areVacant cs = false) :
    pieces [.group link cs] = .text "(" :: pieces cs ++ [.text ")"] := by
  simp [pieces, listTokens, isVacant, hcs, tokens, Token.pieces]

end Clause

theorem Query.wheres_isolate_eq (q : Query) : q.isolate.wheres = Clause.isolated q.wheres := by
  unfold isolate Clause.isolated
  split <;> rfl

/-- Isolated clauses with a test behind them need no further group. -/
theorem Clause.isolated_append (cs : List Clause) {t : Test} (ht : Predicate.hasRaw t = false) :
    isolated (isolated cs ++ [.test .and t]) = isolated cs ++ [.test .and t] := by
  have htest : (test .and t).isLoose = false := by
    cases t with
    | raw r => cases ht
    | _ => rfl
  have hfirm : (isolated cs).any isLoose = false := by
    unfold isolated
    split
    · rfl
    · rename_i h
      simpa using h
  have hall : (isolated cs ++ [test .and t]).any isLoose = false := by
    simp [List.any_append, hfirm, htest]
  rw [isolated, hall]
  rfl

/-! ### Readings of raw text -/

namespace Predicate

/-- How tests are read: the connectors between the atoms of each. Only raw text has any. -/
structure RawReading where
  connectors : Test → List Connector
  single : ∀ t, hasRaw t = false → connectors t = []

/-- Whether a verdict is about tests that are read in this way. -/
def Verdict.ReadsAs (v : Verdict) (reading : RawReading) : Prop :=
  ∀ t, (v.chain t).rest.map Prod.fst = reading.connectors t

/-- Whether some test at the top of a predicate is read with an OR. -/
def RawReading.Splits (reading : RawReading) (cs : List Clause) : Prop :=
  ∃ link t, Clause.test link t ∈ cs ∧ .or ∈ reading.connectors t

open Classical in
/-- The verdict that fails the atoms of some tests and no others. -/
noncomputable def RawReading.allBut (reading : RawReading) (tests : List Test) : Verdict where
  chain t := ⟨t ∉ tests, (reading.connectors t).map fun c => (c, decide (t ∉ tests))⟩
  single t ht := by rw [reading.single t ht]; rfl

variable {reading : RawReading} {v : Verdict}

theorem RawReading.readsAs_allBut (tests : List Test) : (reading.allBut tests).ReadsAs reading := by
  intro t
  simp [RawReading.allBut, Function.comp_def]

/-- Clauses that are not loose are joined by AND, where no test among them is read with an OR. -/
theorem link_listItems {cs : List Clause} (hloose : cs.any Clause.isLoose = false)
    (hsplit : ¬reading.Splits cs) (hv : v.ReadsAs reading) :
    ∀ e ∈ listItems v.chain cs, e.1 = .and := by
  intro e he
  obtain ⟨c, hc, he⟩ := mem_listItems he
  have hnot : c.isLoose = false := by
    rw [List.any_eq_false] at hloose
    simpa using hloose c hc
  refine v.link_items hnot (fun link t ht a ha => ?_) e he
  have hmem : a.1 ∈ reading.connectors t := hv t ▸ List.mem_map_of_mem ha
  cases hlink : a.1 with
  | and => rfl
  | or => exact absurd ⟨link, t, ht ▸ hc, hlink ▸ hmem⟩ hsplit

/-- A test that is read with an OR makes the predicate it stands in an alternative. -/
theorem RawReading.Splits.or_mem {cs : List Clause} (h : reading.Splits cs)
    (hv : v.ReadsAs reading) : .or ∈ ((listItems v.chain cs).map Prod.fst).tail := by
  obtain ⟨link, t, ht, hor⟩ := h
  obtain ⟨before, after, rfl⟩ := List.append_of_mem ht
  rw [← hv t] at hor
  have hsplit : (listItems v.chain (before ++ .test link t :: after)).map Prod.fst =
      (listItems v.chain before).map Prod.fst ++
        link :: ((v.chain t).rest.map Prod.fst ++ (listItems v.chain after).map Prod.fst) := by
    simp [listItems_append, listItems, items, Chain.items, Function.comp_def]
  rw [hsplit]
  cases (listItems v.chain before).map Prod.fst with
  | nil => exact List.mem_append_left _ hor
  | cons c rest =>
    exact List.mem_append_right _ (List.mem_cons_of_mem _ (List.mem_append_left _ hor))

end Predicate

namespace Selection

open Predicate

variable {σ : Type} (s : Selection σ)

/-! ### The queries -/

/-- The test for the mark of deletion, when the selection asks for one. -/
def scopeTests : List Test :=
  if !s.model.softDeletes || s.trashed = .include then []
  else [.isNull (s.qualify s.model.deletedAt) (s.trashed = .only)]

/-- The queries that a selection adds tests to, and these tests: the query that runs, and the query
of a chunk by key, which has a bound on the key behind the first chunk. -/
inductive Appends : Query → List Test → Prop where
  | scope : Appends s.toQuery s.scopeTests
  | page (size : UInt64) (last : Option Value) :
      Appends (s.keyedPage size last).toQuery (last.toList.map s.beyond ++ s.scopeTests)

variable {s}

theorem hasRaw_of_appends {q : Query} {tests : List Test} (h : s.Appends q tests) :
    ∀ t ∈ tests, hasRaw t = false := by
  have hscope : ∀ t ∈ s.scopeTests, hasRaw t = false := by
    intro t ht
    unfold scopeTests at ht
    split at ht
    · cases ht
    · obtain rfl := List.mem_singleton.1 ht
      rfl
  cases h with
  | scope => exact hscope
  | page size last =>
    intro t ht
    rcases List.mem_append.1 ht with ht | ht
    · obtain ⟨v, -, rfl⟩ := List.mem_map.1 ht
      rfl
    · exact hscope t ht

variable (s)

theorem wheres_toQuery : s.toQuery.wheres =
    if s.scopeTests = [] then s.query.wheres
    else Clause.isolated s.query.wheres ++ s.scopeTests.map (.test .and) := by
  rw [toQuery, wheres_scopedTo, Query.wheres_isolate_eq, scopeTests]
  split <;> simp

/-- **The predicate of a query that tests are added to**: that of the selection, in a group if one
of its clauses is loose, and the tests behind it. -/
theorem wheres_of_appends {q : Query} {tests : List Test} (h : s.Appends q tests)
    (hne : tests ≠ []) :
    q.wheres = Clause.isolated s.query.wheres ++ tests.map (.test .and) := by
  cases h with
  | scope => rw [wheres_toQuery, if_neg hne]
  | page size last =>
    cases last with
    | none =>
      have hpage : (s.keyedPage size none).toQuery.wheres = s.toQuery.wheres :=
        s.wheres_scopedTo_refine (f := fun _ => s.inKeyOrder size) rfl rfl s.trashed
      rw [Option.toList_none, List.map_nil, List.nil_append] at hne ⊢
      rw [hpage, wheres_toQuery, if_neg hne]
    | some k =>
      have hwheres : (s.keyedPage size (some k)).query.wheres =
          Clause.isolated s.query.wheres ++ [.test .and (s.beyond k)] := by
        have hfilter := Query.wheres_filter (s.inKeyOrder size).isolate .and (s.beyond k)
        rw [Query.wheres_isolate_eq] at hfilter
        exact hfilter
      have hscope : (s.keyedPage size (some k)).scopeTests = s.scopeTests := by
        have hjoins : (s.keyedPage size (some k)).query.joins = s.query.joins :=
          (Query.joins_filter _ .and (s.beyond k)).trans (joins_isolate (s.inKeyOrder size))
        have hqualify : ∀ column,
            (s.keyedPage size (some k)).qualify column = s.qualify column := by
          intro column
          rw [qualify, hjoins]
          rfl
        rw [scopeTests, hqualify]
        rfl
      -- the group that was made for the bound serves the mark of deletion as well
      rw [wheres_toQuery, hscope, hwheres, Clause.isolated_append _ rfl]
      split
      · rename_i hnone
        simp [hnone]
      · simp

/-! ### Tests behind a predicate -/

/-- What becomes of tests behind a predicate of a selection. They are written behind it, and behind
parentheses around it only when one of its clauses is loose. Then they narrow the predicate, and
also when no test at its top is read with an OR. When one is, and nothing is in parentheses, rows
pass that fail every one of the tests. -/
structure TestsBehind (own : List Clause) (q : Query) (tests : List Test) : Prop where
  written : Clause.listPieces " WHERE " q.wheres = .text " WHERE " ::
    (if own.any Clause.isLoose then .text "(" :: Clause.pieces own ++ [.text ")"]
      else Clause.pieces own) ++ Clause.conjoined tests
  narrowed : ∀ reading : RawReading, (own.any Clause.isLoose = true ∨ ¬reading.Splits own) →
    ∀ v : Verdict, v.ReadsAs reading →
      (v.passes q.wheres ↔ v.passes own ∧ ∀ t ∈ tests, v.holds t)
  escaped : ∀ reading : RawReading, own.any Clause.isLoose = false → reading.Splits own →
    (∀ t ∈ tests, t ∉ Clause.listTests own) →
      ∃ v : Verdict, v.ReadsAs reading ∧ v.passes q.wheres ∧ ∀ t ∈ tests, ¬v.holds t

/-- **Tests behind a predicate with raw text.** The test for the mark of deletion and the bound on
the key narrow the predicate of a selection exactly when a clause at its top is loose or no raw text
in its comparisons is read with an OR. -/
theorem testsBehind {q : Query} {tests : List Test} (h : s.Appends q tests) (hne : tests ≠ [])
    (hown : Clause.areVacant s.query.wheres = false) : TestsBehind s.query.wheres q tests := by
  have hwheres := s.wheres_of_appends h hne
  have hraw := hasRaw_of_appends h
  cases hloose : s.query.wheres.any Clause.isLoose with
  | true =>
    -- in parentheses the predicate is one item, however its raw text is read
    have hgroup : q.wheres = [.group .and s.query.wheres] ++ tests.map (.test .and) := by
      rw [hwheres, Clause.isolated, if_pos hloose]
    refine ⟨?_, fun reading _ v _ => ?_, fun reading hfirm => ?_⟩
    · have hvacant : Clause.areVacant [.group .and s.query.wheres] = false := by
        rw [Clause.areVacant_group, hown]
      rw [hgroup, Clause.listPieces_append_tests _ hvacant, Clause.pieces_group .and hown, hloose]
      rfl
    · rw [hgroup, v.passes_append_tests (v.link_group _) hraw, v.passes_group]
    · rw [hloose] at hfirm
      cases hfirm
  | false =>
    have hbare : q.wheres = s.query.wheres ++ tests.map (.test .and) := by
      rw [hwheres, Clause.isolated, hloose]
      rfl
    refine ⟨?_, fun reading hfirm v hv => ?_, fun reading _ hsplits hfresh => ?_⟩
    · rw [hbare, Clause.listPieces_append_tests _ hown, hloose]
      rfl
    · have hnot : ¬reading.Splits s.query.wheres := by
        rcases hfirm with hfirm | hnot
        · rw [hloose] at hfirm
          cases hfirm
        · exact hnot
      rw [hbare, v.passes_append_tests (link_listItems hloose hnot hv) hraw]
    · -- up to the OR everything holds, and what is behind it does not matter
      let v := reading.allBut tests
      have hv : v.ReadsAs reading := RawReading.readsAs_allBut tests
      have htrue := value_listItems v.chain s.query.wheres fun t ht => by
        have hnot : t ∉ tests := fun h => hfresh t h ht
        simp [v, RawReading.allBut, Chain.AllTrue, hnot]
      refine ⟨v, hv, ?_, fun t ht hholds => ?_⟩
      · rw [hbare]
        exact v.passes_append_of_or htrue (hsplits.or_mem hv) _
      · have hfirst := (v.holds_iff (hraw t ht)).1 hholds
        simp [v, RawReading.allBut, ht] at hfirst

/-- The second chunk of a selection that compares with raw text, on a model that marks rows. -/
theorem testsBehind_secondChunk :
    let s : Selection Unit := (all { table := "posts", softDeletes := true }).refine
      (·.filter .and (.compare "a" "=" (.raw ⟨"1 OR b = 2", []⟩)))
    let q := (s.keyedPage 2 (some (.int 7))).toQuery
    let tests : List Test := [.compare "id" ">" (.value (.int 7)), .isNull "deleted_at" false]
    s.Appends q tests ∧ tests ≠ [] ∧ Clause.areVacant s.query.wheres = false ∧
      TestsBehind s.query.wheres q tests := by
  intro s q tests
  have happends : s.Appends q tests := .page 2 (some (.int 7))
  have hne : tests ≠ [] := List.cons_ne_nil _ _
  have hown : Clause.areVacant s.query.wheres = false := rfl
  exact ⟨happends, hne, hown, s.testsBehind happends hne hown⟩

/-- A row that is marked as deleted and passes the query that runs. No parentheses keep the raw text
together, and its OR leaves the test for the mark on one side. -/
theorem raw_comparison_escapes :
    let s : Selection Unit := (all { table := "posts", softDeletes := true }).refine
      (·.filter .and (.compare "a" "=" (.raw ⟨"1 OR b = 2", []⟩)))
    s.toQuery.selectStatement .postgres =
        .ok ⟨"SELECT * FROM posts WHERE a = 1 OR b = 2 AND deleted_at IS NULL", []⟩ ∧
      ∃ v : Verdict, v.passes s.toQuery.wheres ∧ ¬v.holds (.isNull "deleted_at" false) := by
  intro s
  let v : Verdict :=
    { chain := fun t => if comparesRaw t then ⟨true, [(.or, false)]⟩ else ⟨false, []⟩
      single := by
        intro t ht
        rw [comparesRaw_eq_false ht]
        rfl }
  have hpasses : v.passes s.toQuery.wheres := (v.passes_iff _).2 rfl
  have hmark : ¬v.holds (.isNull "deleted_at" false) := Bool.false_ne_true
  have hsql : Piece.render .numbered 0 (s.toQuery.selectPieces .postgres "posts") =
      "SELECT * FROM posts WHERE a = 1 OR b = 2 AND deleted_at IS NULL" := by
    decide +kernel
  have hcheck : Form.select.check s.toQuery = pure "posts" := rfl
  have hsteps := Form.select.statement_eq .postgres s.toQuery
  have hbindings : Piece.bindings (s.toQuery.selectPieces .postgres "posts") = [] := rfl
  have hflaw : Piece.firstFlaw? (s.toQuery.selectPieces .postgres "posts") = none := by
    decide +kernel
  have hfinish := Piece.finish_of_sound .numbered hflaw
  rw [hsql, hbindings] at hfinish
  rw [hcheck, pure_bind] at hsteps
  exact ⟨hsteps.trans hfinish, v, hpasses, hmark⟩

end Selection

end ActiveRow
