import Mathlib.Data.List.Induction
import ActiveRow.Proofs.Compilation.CheckedCalls
import ActiveRow.Proofs.Compilation.Placeholders
import ActiveRow.Proofs.FirstSeen
import ActiveRow.Proofs.Model.RowStatement

/-!
# Rows added together

A list of rows is added by one statement. Its columns are the names that any of the rows has, and
each row is laid out along them, with null where it has no value.

* `Query.firstSeen_distinctNames`: the columns, each where it is first seen.
* `Query.insertStatement_values`, `Query.insertStatement_defaults`: the statement, with columns and
  without.
* `Query.insertMany_stores`: what is sent for a list of rows, and what rows it adds.
-/

namespace ActiveRow

/-! ### The columns -/

namespace Query

theorem distinctNames_concat (names : List String) (n : String) :
    distinctNames (names ++ [n]) =
      if (distinctNames names).contains n then distinctNames names
      else distinctNames names ++ [n] := by
  rw [distinctNames, List.foldl_append]
  rfl

/-- **The columns** are the names where they are first seen. -/
theorem firstSeen_distinctNames (names : List String) : FirstSeen names (distinctNames names) := by
  induction names using List.reverseRecOn with
  | nil => exact .nil
  | append_singleton names n ih =>
    rw [distinctNames_concat]
    split
    · rename_i hseen
      exact ih.seen (List.contains_iff_mem.1 hseen)
    · rename_i hnew
      exact ih.new fun hn => hnew (List.contains_iff_mem.2 hn)

end Query

/-! ### The statement -/

/-- Tuples of `width` marks each; the first mark comes behind `used` others. -/
def tuples (style : Placeholder) (width used n : Nat) : List String :=
  (List.range n).map fun i =>
    "(" ++ String.intercalate ", " (marks style (used + i * width) width) ++ ")"

theorem tuples_succ (style : Placeholder) (width used n : Nat) :
    tuples style width used (n + 1) =
      ("(" ++ String.intercalate ", " (marks style used width) ++ ")") ::
        tuples style width (used + width) n := by
  have hshift : ∀ i, used + (i + 1) * width = used + width + i * width := by
    intro i
    rw [Nat.add_mul, Nat.one_mul]
    omega
  simp only [tuples, List.range_succ_eq_map, List.map_cons, List.map_map, Function.comp_def,
    Nat.succ_eq_add_one, hshift, Nat.zero_mul, Nat.add_zero]

/-- The statement that adds rows of values for columns. -/
def insertion (d : Dialect) (table : String) (columns : List String) (stored : List (List Value)) :
    Statement where
  sql := "INSERT INTO " ++ table ++ " (" ++ String.intercalate ", " columns ++ ") VALUES " ++
    String.intercalate ", " (tuples d.placeholder columns.length 0 stored.length)
  bindings := stored.flatten

theorem sql_insertion (d : Dialect) (table : String) (columns : List String)
    (stored : List (List Value)) : (insertion d table columns stored).sql =
      "INSERT INTO " ++ (table ++ (" (" ++ (String.intercalate ", " columns ++ (") VALUES " ++
        String.intercalate ", " (tuples d.placeholder columns.length 0 stored.length))))) := by
  show "INSERT INTO " ++ table ++ " (" ++ String.intercalate ", " columns ++ ") VALUES " ++
    String.intercalate ", " (tuples d.placeholder columns.length 0 stored.length) = _
  simp only [String.append_assoc]

/-- The statement that adds one row of defaults. -/
def defaultInsertion (table : String) : Statement :=
  ⟨"INSERT INTO " ++ table ++ " DEFAULT VALUES", []⟩

/-- Which rows a statement adds to a table: the values that are given for each, along the
columns. -/
inductive Adds (d : Dialect) (table : String) :
    Statement → List String → List (List Value) → Prop where
  | defaults : Adds d table (defaultInsertion table) [] [[]]
  | values {columns : List String} {stored : List (List Value)} (hcolumns : columns ≠ [])
      (hrows : stored ≠ []) (hwidth : ∀ values ∈ stored, values.length = columns.length) :
      Adds d table (insertion d table columns stored) columns stored

/-- The statement without columns adds one row, and no other reading of it is possible. -/
theorem Adds.of_defaults {d : Dialect} {table : String} {s : Statement} {columns : List String}
    {stored : List (List Value)} (h : Adds d table s columns stored)
    (hs : s = defaultInsertion table) : columns = [] ∧ stored = [[]] := by
  cases h with
  | defaults => exact ⟨rfl, rfl⟩
  | values hcolumns _ _ =>
    -- behind the table the one opens a parenthesis
    have hsql := congrArg Statement.sql hs
    rw [sql_insertion] at hsql
    have hbehind := (String.append_right_inj _).1 (hsql.trans (String.append_assoc ..))
    have htail := (String.append_right_inj _).1 hbehind
    have hopen : " (".toList = [' ', '('] := by decide
    have hdefault : " DEFAULT VALUES".toList = ' ' :: 'D' :: "EFAULT VALUES".toList := by decide
    have hlist := congrArg String.toList htail
    rw [String.toList_append, hopen, hdefault] at hlist
    have hchar : '(' = 'D' := (List.cons.inj (List.cons.inj hlist).2).1
    exact absurd hchar (by decide)

namespace Query

theorem unevenRow?_of_width {width : Nat} {rows : List (List Operand)}
    (h : ∀ row ∈ rows, row.length = width) : ∀ i, unevenRow? width i rows = none := by
  induction rows with
  | nil => intro i; rfl
  | cons row rows ih =>
    intro i
    have hrow : row.length = width := h row List.mem_cons_self
    rw [unevenRow?, if_pos hrow]
    exact ih (fun r hr => h r (List.mem_cons_of_mem _ hr)) (i + 1)

theorem rowPieces_values (vs : List Value) :
    rowPieces (vs.map .value) = .text "(" :: Piece.slots vs ++ [.text ")"] := by
  rw [rowPieces, List.map_map]
  rfl

theorem bindings_rowPieces (vs : List Value) : Piece.bindings (rowPieces (vs.map .value)) = vs := by
  rw [rowPieces_values, Piece.bindings_append, Piece.bindings, Piece.bindings_slots]
  exact List.append_nil vs

theorem firstFlaw?_rowPieces (vs : List Value) :
    Piece.firstFlaw? (rowPieces (vs.map .value)) = none := by
  rw [rowPieces_values, Piece.firstFlaw?_append, Piece.firstFlaw?, Piece.firstFlaw?_slots]
  rfl

theorem render_rowPieces (style : Placeholder) (used : Nat) (vs : List Value) :
    Piece.render style used (rowPieces (vs.map .value)) =
      "(" ++ String.intercalate ", " (marks style used vs.length) ++ ")" := by
  rw [rowPieces_values, Piece.render_append, Piece.render, Piece.render_slots]
  simp [Piece.render]

/-- Rows of one width are tuples of marks, numbered on from row to row. -/
theorem renderEach_rows (style : Placeholder) {width : Nat} {stored : List (List Value)}
    (h : ∀ values ∈ stored, values.length = width) : ∀ used,
    Piece.renderEach style used ((stored.map (List.map Operand.value)).map rowPieces) =
      tuples style width used stored.length := by
  induction stored with
  | nil => intro used; rfl
  | cons values stored ih =>
    intro used
    have hwidth : values.length = width := h values List.mem_cons_self
    have hrest := ih (fun vs hvs => h vs (List.mem_cons_of_mem _ hvs)) (used + width)
    rw [List.map_cons, List.map_cons, Piece.renderEach, render_rowPieces, bindings_rowPieces,
      hwidth, hrest, List.length_cons, tuples_succ]

variable {q : Query} {table : String}

/-- A query with a table that remembers no refused operator passes every check but that of the
form. -/
theorem check_insert (hvalid : q.firstInvalid = none) (htable : q.table = some table)
    {columns : List String} {rows : List (List Operand)}
    (hwidth : ∀ row ∈ rows, row.length = columns.length) :
    (Form.insert columns rows).check q = .ok table := by
  have heven : unevenRow? columns.length 0 rows = none := unevenRow?_of_width hwidth 0
  rw [Form.check, validate, hvalid, requireTable, htable, Form.refusal?, heven, ite_self]
  rfl

/-- **The statement of rows** that have a value for each column. -/
theorem insertStatement_values (d : Dialect) (hvalid : q.firstInvalid = none)
    (htable : q.table = some table) {columns : List String} {stored : List (List Value)}
    (hcolumns : columns ≠ []) (hwidth : ∀ values ∈ stored, values.length = columns.length) :
    q.insertStatement d columns (stored.map (List.map .value)) =
      .ok (insertion d table columns stored) := by
  have hsteps := (Form.insert columns (stored.map (List.map .value))).statement_eq d q
  have hrows : ∀ row ∈ stored.map (List.map Operand.value), row.length = columns.length := by
    intro row hrow
    obtain ⟨values, hvalues, rfl⟩ := List.mem_map.1 hrow
    rw [List.length_map]
    exact hwidth values hvalues
  rw [check_insert hvalid htable hrows] at hsteps
  let front : List Piece := [.text "INSERT INTO ", .text table, .text " (",
    .text (String.intercalate ", " columns), .text ") VALUES "]
  let tail : List Piece :=
    Piece.separated ", " ((stored.map (List.map Operand.value)).map rowPieces)
  have hempty : columns.isEmpty = false := by simpa using hcolumns
  have hpieces : insertPieces table columns (stored.map (List.map .value)) = front ++ tail := by
    rw [insertPieces, hempty]
    rfl
  have hbindings : Piece.bindings (front ++ tail) = stored.flatten := by
    have htail : Piece.bindings tail = stored.flatten := by
      simp [tail, Piece.bindings_separated, List.flatMap_map, bindings_rowPieces, List.flatMap_id']
    exact htail
  have hflaw : Piece.firstFlaw? (front ++ tail) = none := by
    have htail : Piece.firstFlaw? tail = none := by
      rw [Piece.firstFlaw?_separated, List.findSome?_eq_none_iff]
      intro p hp
      obtain ⟨row, hrow, rfl⟩ := List.mem_map.1 hp
      obtain ⟨values, -, rfl⟩ := List.mem_map.1 hrow
      exact firstFlaw?_rowPieces values
    exact htail
  have hsql : Piece.render d.placeholder 0 (front ++ tail) =
      (insertion d table columns stored).sql := by
    have htail : Piece.render d.placeholder 0 tail =
        String.intercalate ", " (tuples d.placeholder columns.length 0 stored.length) := by
      rw [Piece.render_separated, renderEach_rows _ hwidth]
    rw [sql_insertion, ← htail]
    rfl
  have hfinish : Piece.finish d.placeholder (front ++ tail) =
      .ok (insertion d table columns stored) := by
    rw [Piece.finish_of_sound _ hflaw, hsql, hbindings]
    rfl
  refine hsteps.trans ?_
  show Piece.finish d.placeholder (insertPieces table columns (stored.map (List.map .value))) = _
  rw [hpieces, hfinish]

/-- **The statement without columns** is the same for all rows: it adds one row of defaults. -/
theorem insertStatement_defaults (d : Dialect) (hvalid : q.firstInvalid = none)
    (htable : q.table = some table) (rows : List (List Operand)) :
    q.insertStatement d [] rows = .ok (defaultInsertion table) := by
  have hsteps := (Form.insert [] rows).statement_eq d q
  have hcheck : (Form.insert [] rows).check q = .ok table := by
    rw [Form.check, validate, hvalid, requireTable, htable]
    rfl
  rw [hcheck] at hsteps
  have hfinish : Piece.finish d.placeholder
      [.text "INSERT INTO ", .text table, .text " DEFAULT VALUES"] =
        .ok (defaultInsertion table) := by
    have hsql : "INSERT INTO " ++ (table ++ (" DEFAULT VALUES" ++ "")) =
        (defaultInsertion table).sql := by
      rw [String.append_empty, ← String.append_assoc]
      rfl
    rw [Piece.finish_of_sound _ rfl]
    exact congrArg (fun sql => Except.ok (Statement.mk sql [])) hsql
  exact hsteps.trans hfinish

end Query

/-! ### What is stored -/

/-- A statement adds rows to a table: along the names of all rows, each where it is first seen, each
row has its own values, and null where it has none. A row is added for each, in order, when any of
them has a name; else one row of defaults is. -/
structure Stores (d : Dialect) (table : String) (rows : List Attributes) (s : Statement)
    (columns : List String) (stored : List (List Value)) : Prop where
  adds : Adds d table s columns stored
  named : FirstSeen (rows.flatMap Keyed.keys) columns
  value : ∀ (i : Nat) (row : Attributes) (values : List Value), rows[i]? = some row →
    stored[i]? = some values → ∀ c ∈ columns,
      Pairs.get? c (columns.zip values) = some ((row.get? c).getD .null)
  one_each : (∃ row ∈ rows, row.keys ≠ []) → stored.length = rows.length
  one_row : (∀ row ∈ rows, row.keys = []) → stored.length = 1

namespace Query

/-- The values of a row along columns; null where it has none. -/
def valuesAlong (columns : List String) (row : Attributes) : List Value :=
  columns.map fun n => (row.get? n).getD .null

theorem laidOut_eq (columns : List String) (row : Attributes) :
    laidOut columns row = (valuesAlong columns row).map .value := by
  rw [laidOut, valuesAlong, List.map_map]
  rfl

theorem get?_zip_valuesAlong {columns : List String} {c : String} (hc : c ∈ columns)
    (row : Attributes) : Pairs.get? c (columns.zip (valuesAlong columns row)) =
      some ((row.get? c).getD .null) := by
  induction columns with
  | nil => cases hc
  | cons n columns ih =>
    by_cases hn : n = c
    · subst hn
      simp [valuesAlong, Pairs.get?]
    · have hrest : c ∈ columns := (List.mem_cons.1 hc).resolve_left (Ne.symm hn)
      simpa [valuesAlong, Pairs.get?, hn] using ih hrest

theorem columnsOf_eq_nil_iff (rows : List Attributes) :
    columnsOf rows = [] ↔ ∀ row ∈ rows, row.keys = [] := by
  have hseen := firstSeen_distinctNames (rows.flatMap Keyed.keys)
  rw [← List.flatMap_eq_nil_iff, List.eq_nil_iff_forall_not_mem, List.eq_nil_iff_forall_not_mem]
  exact forall_congr' fun n => not_congr (hseen.mem_iff n)

variable {q : Query} {table : String}

/-- **The statement for a list of rows.** -/
theorem stores_rows (d : Dialect) (hvalid : q.firstInvalid = none) (htable : q.table = some table)
    {rows : List Attributes} (hrows : rows ≠ []) : ∃ s columns stored,
      q.insertStatement d (columnsOf rows) (rows.map (laidOut (columnsOf rows))) = .ok s ∧
        Stores d table rows s columns stored := by
  have hseen : FirstSeen (rows.flatMap Keyed.keys) (columnsOf rows) :=
    firstSeen_distinctNames _
  by_cases hcolumns : columnsOf rows = []
  · -- No row has a name, and the rows do not matter: there is no place to give them.
    have hempty : ∀ row ∈ rows, row.keys = [] := (columnsOf_eq_nil_iff rows).1 hcolumns
    rw [hcolumns] at hseen ⊢
    refine ⟨_, [], [[]], insertStatement_defaults d hvalid htable _, .defaults, hseen, ?_, ?_, ?_⟩
    · intro i row values _ _ c hc
      cases hc
    · rintro ⟨row, hrow, hkeys⟩
      exact absurd (hempty row hrow) hkeys
    · intro _
      rfl
  · let stored : List (List Value) := rows.map (valuesAlong (columnsOf rows))
    have hlaid : rows.map (laidOut (columnsOf rows)) = stored.map (List.map .value) := by
      rw [List.map_map]
      exact List.map_congr_left fun row _ => laidOut_eq _ row
    have hwidth : ∀ values ∈ stored, values.length = (columnsOf rows).length := by
      intro values hvalues
      obtain ⟨row, -, rfl⟩ := List.mem_map.1 hvalues
      exact List.length_map _
    have hstored : stored ≠ [] := by simpa [stored] using hrows
    refine ⟨_, columnsOf rows, stored, ?_, .values hcolumns hstored hwidth, hseen, ?_, ?_, ?_⟩
    · rw [hlaid]
      exact insertStatement_values d hvalid htable hcolumns hwidth
    · intro i row values hrow hvalues c hc
      have hat : stored[i]? = some (valuesAlong (columnsOf rows) row) := by
        simp only [stored, List.getElem?_map, hrow, Option.map_some]
      obtain rfl : values = valuesAlong (columnsOf rows) row :=
        Option.some.inj (hvalues.symm.trans hat)
      exact get?_zip_valuesAlong hc row
    · intro _
      exact List.length_map _
    · intro hempty
      exact absurd ((columnsOf_eq_nil_iff rows).2 hempty) hcolumns

end Query

namespace Script

variable {υ : Type} {driver name : String} {d : Dialect} {scope : Except Fault (Option String)}

/-- **What is stored of a list of rows**, in the table of a query. Nothing is sent for no rows, nor
when the query remembers a refused operator. Else one statement is sent, and its reply is the
result: it adds the rows, none of them lost or given twice and each value in its own column, unless
no row has a name. It then adds one row, however many there are. -/
theorem insertMany_stores {q : Query} {table : String} (htable : q.table = some table)
    (rows : List Attributes) (st : Script υ) :
    let after := (q.insertMany (connection driver d name scope) rows).from_ st
    if rows.isEmpty then after = (.ok 0, st)
    else match q.firstInvalid with
      | some op => after = (.error (.validation (.operator op)), st)
      | none => ∃ s columns stored, Stores d table rows s columns stored ∧
        after.2.log = st.log ++ [request name s] ∧
        after.1 = (st.reply name).map Output.count := by
  intro after
  have hsend : rows.isEmpty = false → after =
      match q.insertStatement d (Query.columnsOf rows)
        (rows.map (Query.laidOut (Query.columnsOf rows))) with
      | .ok s => ((connection driver d name scope).insert s).from_ st
      | .error cause => (.error cause, st) := by
    intro hrows
    have hdialect : (connection driver d name scope : Connection (Script υ)).dialect = d := rfl
    simp only [after, Query.insertMany, hrows, hdialect]
    cases q.insertStatement d (Query.columnsOf rows)
      (rows.map (Query.laidOut (Query.columnsOf rows))) <;> rfl
  cases hrows : rows.isEmpty with
  | true =>
    have hafter : after = (.ok 0, st) := by
      simp only [after, Query.insertMany, hrows]
      rfl
    rw [if_pos rfl, hafter]
  | false =>
    rw [if_neg Bool.false_ne_true, hsend hrows]
    cases hvalid : q.firstInvalid with
    | some op =>
      have hrefused : q.insertStatement d (Query.columnsOf rows)
          (rows.map (Query.laidOut (Query.columnsOf rows))) =
            .error (.validation (.operator op)) :=
        Form.statement_of_firstInvalid hvalid d (.insert _ _)
      rw [hrefused]
    | none =>
      have hsome : rows ≠ [] := by simpa using hrows
      obtain ⟨s, columns, stored, hstatement, hstores⟩ := Query.stores_rows d hvalid htable hsome
      obtain ⟨st', hlog, hsent⟩ := from_change_dispatch driver name d scope .insert s st
      have hend : ((connection driver d name scope).insert s).from_ st =
          ((st.reply name).map Output.count, st') := hsent
      rw [hstatement]
      refine ⟨s, columns, stored, hstores, ?_, ?_⟩
      · simpa only [hend] using hlog
      · simp only [hend]

/-- Rows with some names in common, with one of its own, and with none. -/
theorem insertMany_stores_ragged :
    let rows : List Attributes :=
      [.ofList [("a", .int 1), ("b", .int 2)], .ofList [("c", .int 3), ("a", .int 4)], .empty]
    let after := ((Query.on "t").insertMany (connection "wire" .mysql "main" (.ok none)) rows).from_
      (start ())
    (Query.on "t").table = some "t" ∧ ∃ s columns stored, Stores .mysql "t" rows s columns stored ∧
      after.2.log = [request "main" s] ∧ after.1 = .ok 0 := by
  intro rows after
  have htable : (Query.on "t").table = some "t" := rfl
  have hstores := @insertMany_stores Unit "wire" "main" .mysql (.ok none) _ _ htable rows (start ())
  exact ⟨htable, hstores⟩

/-- Of two rows without names one is stored: the statement that is sent cannot be read to add
two. -/
theorem insertMany_drops_row :
    let after := ((Query.on "t").insertMany (connection "wire" .mysql "main" (.ok none))
      [.empty, .empty]).from_ (start ())
    after.2.log = [request "main" (defaultInsertion "t")] ∧
      ∀ columns stored, Adds .mysql "t" (defaultInsertion "t") columns stored →
        stored.length ≠ 2 := by
  refine ⟨rfl, fun columns stored hadds => ?_⟩
  obtain ⟨-, rfl⟩ := hadds.of_defaults rfl
  decide

end Script

end ActiveRow
