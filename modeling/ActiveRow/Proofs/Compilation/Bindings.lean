import ActiveRow.Proofs.Compilation
import ActiveRow.Proofs.Predicate.Pruning

/-!
# Bound values in order

The values that a query asks to bind are read off its parts, one part after the other: `values` on
each kind of part. A statement binds exactly these, in this order. A part may have a flaw, and then
there is no statement; so what the pieces of a part bind is said of pieces without flaws.

* `Raw.binds_pieces`: a fragment that has a mark for each binding binds them all.
* `Query.binds_selectPieces`, `Form.binds_layout`: the parts put together.
* `bindings_eq_values`: what a statement binds, in every form.
-/

namespace ActiveRow

/-! ### The values of a query -/

namespace Operand

def values : Operand → List Value
  | value v => [v]
  | raw r => r.bindings

end Operand

namespace Test

/-- The operators that compare with null by a test for null, which binds nothing. -/
def nullOperators : List String := ["=", "IS", "!=", "<>", "IS NOT"]

def values : Test → List Value
  | compare _ operator operand =>
    if operand.isNull ∧ Operator.written operator ∈ nullOperators then [] else operand.values
  | among _ values _ => values
  | isNull _ _ => []
  | between _ low high _ => [low, high]
  | columns _ _ _ => []
  | raw r => r.bindings

end Test

/-- The values of tests at any depth, from left to right. -/
def Clause.listValues (cs : List Clause) : List Value := (listTests cs).flatMap Test.values

namespace JoinCondition

def values : JoinCondition → List Value
  | columns _ _ _ _ => []
  | value _ _ v _ => [v]

end JoinCondition

/-- A cross join has no conditions. -/
def Join.values (j : Join) : List Value :=
  if j.kind = .cross then [] else j.conditions.flatMap JoinCondition.values

namespace Column

def values : Column → List Value
  | name _ => []
  | raw r => r.bindings

end Column

namespace Order

def values : Order → List Value
  | column _ _ => []
  | raw r => r.bindings

end Order

namespace Query

/-- The values of joins, row tests and group tests. -/
def coreValues (q : Query) : List Value :=
  q.joins.flatMap Join.values ++ Clause.listValues q.wheres ++ Clause.listValues q.havings

def columnValues (q : Query) : List Value := q.columns.flatMap Column.values

def orderValues (q : Query) : List Value := q.orders.flatMap Order.values

end Query

/-- The values of a statement of this form. An aggregate has none of the orders, and of the columns
only when it counts distinct rows of them. An insertion without columns adds a row of defaults. -/
def Form.values (q : Query) : Form → List Value
  | select => q.columnValues ++ q.coreValues ++ q.orderValues
  | probe => q.coreValues
  | aggregate a _ => (if a = .count ∧ q.distinct then q.columnValues else []) ++ q.coreValues
  | insert columns rows => if columns.isEmpty then [] else rows.flatMap (·.flatMap Operand.values)
  | update assignments =>
    assignments.flatMap (fun a => a.2.values) ++ Clause.listValues q.wheres
  | delete => Clause.listValues q.wheres
  | truncate => []

/-! ### Pieces that bind values -/

namespace Piece

/-- Pieces without a flaw bind these values. -/
def Binds (ps : List Piece) (vs : List Value) : Prop := firstFlaw? ps = none → bindings ps = vs

theorem binds_nil : Binds [] [] := fun _ => rfl

theorem binds_text (s : String) : Binds [.text s] [] := fun _ => rfl

theorem binds_slot (v : Value) : Binds [.slot v] [v] := fun _ => rfl

variable {ps ps' : List Piece} {vs vs' : List Value}

theorem Binds.cons_text (h : Binds ps vs) (s : String) : Binds (.text s :: ps) vs := h

theorem Binds.cons_slot (h : Binds ps vs) (v : Value) : Binds (.slot v :: ps) (v :: vs) :=
  fun hf => by rw [bindings, h hf]

theorem Binds.append (h : Binds ps vs) (h' : Binds ps' vs') : Binds (ps ++ ps') (vs ++ vs') := by
  intro hf
  rw [firstFlaw?_append, Option.or_eq_none_iff] at hf
  rw [bindings_append, h hf.1, h' hf.2]

theorem Binds.append_text (h : Binds ps vs) (s : String) : Binds (ps ++ [.text s]) vs := by
  simpa using h.append (binds_text s)

section

variable {α : Type} {f : α → List Piece} {g : α → List Value}

theorem binds_flatMap (l : List α) (h : ∀ x ∈ l, Binds (f x) (g x)) :
    Binds (l.flatMap f) (l.flatMap g) := by
  induction l with
  | nil => exact binds_nil
  | cons x l ih =>
    rw [List.flatMap_cons, List.flatMap_cons]
    exact (h x List.mem_cons_self).append (ih fun y hy => h y (List.mem_cons_of_mem x hy))

theorem binds_separated (separator : String) (l : List α) (h : ∀ x ∈ l, Binds (f x) (g x)) :
    Binds (separated separator (l.map f)) (l.flatMap g) := by
  unfold separated
  induction l with
  | nil => exact binds_nil
  | cons x l ih =>
    have hx := h x List.mem_cons_self
    have hl := ih fun y hy => h y (List.mem_cons_of_mem x hy)
    cases l with
    | nil => simpa using hx
    | cons y l =>
      rw [List.map_cons, List.map_cons, List.intercalate_cons_cons, List.flatMap_cons]
      exact (hx.append_text separator).append hl

end

theorem binds_slots (vs : List Value) : Binds (slots vs) vs := by
  have h := binds_separated ", " vs fun v _ => binds_slot v
  rwa [List.flatMap_singleton'] at h

/-- What a finished statement binds. -/
theorem Binds.finish {style : Placeholder} (h : Binds ps vs) {s : Statement}
    (hs : Piece.finish style ps = .ok s) : s.bindings = vs := by
  have hf : firstFlaw? ps = none := by
    unfold Piece.finish at hs
    cases hf : firstFlaw? ps with
    | none => rfl
    | some cause => rw [hf] at hs; cases hs
  rw [finish_eq_ok hs]
  exact h hf

end Piece

open Piece

/-! ### Parts of a statement -/

namespace Raw

/-- Scanning loses no binding: those without a mark are left over. -/
theorem bindings_scan (cs : List Char) : ∀ (quoted : Bool) (vs : List Value),
    Piece.bindings (scan quoted vs cs).1 ++ (scan quoted vs cs).2 = vs := by
  induction cs with
  | nil => intro quoted vs; simp [scan, Piece.bindings]
  | cons c cs ih =>
    intro quoted vs
    by_cases hq : c = '\''
    · simp only [scan, hq, if_true, Piece.bindings]
      exact ih (!quoted) vs
    · cases vs with
      | nil =>
        simp only [scan, hq, if_false, Piece.bindings]
        exact ih quoted []
      | cons v vs =>
        by_cases hm : c = '?' ∧ !quoted
        · simp only [scan, hq, if_false, if_pos hm, Piece.bindings, List.cons_append, ih quoted vs]
        · simp only [scan, hq, if_false, if_neg hm, Piece.bindings]
          exact ih quoted (v :: vs)

/-- **A fragment binds all its bindings**, when each has a mark. -/
theorem binds_pieces (r : Raw) : Binds r.pieces r.bindings := by
  unfold pieces
  by_cases hb : r.bindings.isEmpty = true
  · rw [if_pos hb, List.isEmpty_iff.1 hb]
    exact binds_text r.sql
  · have hscan := bindings_scan r.sql.toList false r.bindings
    rw [if_neg hb]
    by_cases hl : (scan false r.bindings r.sql.toList).2.isEmpty = true
    · simp only [hl, if_true]
      rw [List.isEmpty_iff.1 hl, List.append_nil] at hscan
      exact fun _ => hscan
    · -- a binding is left over, which is a flaw
      simp only [hl, Bool.false_eq_true, if_false]
      intro hf
      simp [firstFlaw?_append, firstFlaw?] at hf

end Raw

theorem Operand.binds_pieces (o : Operand) : Binds o.pieces o.values := by
  cases o with
  | value v => exact binds_slot v
  | raw r => exact r.binds_pieces

theorem Test.binds_pieces (t : Test) : Binds t.pieces t.values := by
  cases t with
  | compare column operator o =>
    have hmem : Operator.written operator ∈ nullOperators ↔
        (Operator.written operator = "=" ∨ Operator.written operator = "IS") ∨
          Operator.written operator = "!=" ∨ Operator.written operator = "<>" ∨
            Operator.written operator = "IS NOT" := by simp [nullOperators, or_assoc]
    simp only [pieces, values, hmem]
    by_cases hn : o.isNull = true
    · by_cases his : Operator.written operator = "=" ∨ Operator.written operator = "IS"
      · rw [if_pos ⟨hn, his⟩, if_pos ⟨hn, .inl his⟩]
        exact (binds_text _).cons_text _
      · by_cases hnot : Operator.written operator = "!=" ∨ Operator.written operator = "<>" ∨
          Operator.written operator = "IS NOT"
        · rw [if_neg (fun h => his h.2), if_pos ⟨hn, hnot⟩, if_pos ⟨hn, .inr hnot⟩]
          exact (binds_text _).cons_text _
        · rw [if_neg (fun h => his h.2), if_neg (fun h => hnot h.2),
            if_neg (fun h => h.2.elim his hnot)]
          exact o.binds_pieces
    · rw [if_neg (fun h => hn h.1), if_neg (fun h => hn h.1), if_neg (fun h => hn h.1)]
      exact o.binds_pieces
  | among column vs negated =>
    simp only [pieces, values]
    by_cases h : vs.isEmpty = true
    · rw [if_pos h, List.isEmpty_iff.1 h]
      exact binds_text _
    · rw [if_neg h]
      exact (((binds_slots vs).cons_text _).cons_text _).append_text _
  | isNull column negated => exact (binds_text _).cons_text _
  | between column low high negated =>
    exact ((((binds_slot high).cons_text _).cons_slot low).cons_text _).cons_text _
  | columns first operator second => exact fun _ => rfl
  | raw r => exact r.binds_pieces

mutual

theorem Clause.binds_tokens : ∀ c : Clause,
    Binds (c.tokens.flatMap Token.pieces) (c.tests.flatMap Test.values)
  | .test _ t => by simpa [tokens, tests, Token.pieces] using t.binds_pieces
  | .group _ clauses => by
    rw [tokens, tests, List.cons_append, List.flatMap_cons, List.flatMap_append,
      List.flatMap_singleton]
    exact ((Clause.binds_listTokens true clauses).append_text ")").cons_text "("

/-- Written clauses bind the values of the tests inside, whatever is left out. -/
theorem Clause.binds_listTokens (first : Bool) : ∀ cs : List Clause,
    Binds ((listTokens first cs).flatMap Token.pieces) (listValues cs)
  | [] => binds_nil
  | c :: cs => by
    have hc := Clause.binds_tokens c
    rw [listTokens, listValues, listTests, List.flatMap_append]
    by_cases hv : c.isVacant = true
    · rw [if_pos hv, (isVacant_iff c).1 hv]
      exact Clause.binds_listTokens first cs
    · rw [if_neg hv, List.flatMap_append, List.flatMap_append]
      have hlink :
          Binds ((if first then [] else [Token.connector c.link]).flatMap Token.pieces) [] := by
        cases first <;> exact fun _ => rfl
      exact (hlink.append hc).append (Clause.binds_listTokens false cs)

end

theorem Clause.binds_listPieces (keyword : String) (cs : List Clause) :
    Binds (listPieces keyword cs) (listValues cs) := by
  unfold listPieces
  by_cases h : areVacant cs = true
  · rw [if_pos h, listValues, (areVacant_iff cs).1 h]
    exact binds_nil
  · rw [if_neg h]
    exact (binds_listTokens true cs).cons_text keyword

theorem JoinCondition.binds_pieces (c : JoinCondition) :
    Binds (Join.conditionPieces c) c.values := by
  cases c with
  | columns first operator second link => exact fun _ => rfl
  | value column operator v link => exact fun _ => rfl

theorem Join.binds_pieces (j : Join) : Binds j.pieces j.values := by
  obtain ⟨kind, table, conditions⟩ := j
  have hfurther : ∀ rest : List JoinCondition,
      Binds (rest.flatMap furtherPieces) (rest.flatMap JoinCondition.values) := fun rest =>
    binds_flatMap rest fun c _ => c.binds_pieces.cons_text _ |>.cons_text _ |>.cons_text _
  have hon : ∀ (c : JoinCondition) (rest : List JoinCondition),
      Binds ([.text " ", .text kind.sql, .text " ", .text table] ++
        .text " ON " :: conditionPieces c ++ rest.flatMap furtherPieces)
        ((c :: rest).flatMap JoinCondition.values) := fun c rest => by
    rw [List.flatMap_cons]
    exact (c.binds_pieces.append (hfurther rest)).cons_text _ |>.cons_text _ |>.cons_text _
      |>.cons_text _ |>.cons_text _
  cases kind
  case cross => exact fun _ => rfl
  all_goals
    cases conditions with
    | nil => exact fun _ => rfl
    | cons c rest => exact hon c rest

theorem Column.binds_pieces (c : Column) : Binds c.pieces c.values := by
  cases c with
  | name n => exact binds_text n
  | raw r => exact r.binds_pieces

theorem Order.binds_pieces (o : Order) : Binds o.pieces o.values := by
  cases o with
  | column n direction => exact fun _ => rfl
  | raw r => exact r.binds_pieces

namespace Query

variable (q : Query)

theorem binds_columnPieces : Binds q.columnPieces q.columnValues := by
  unfold columnPieces columnValues
  by_cases h : q.columns.isEmpty = true
  · rw [if_pos h, List.isEmpty_iff.1 h]
    exact binds_text "*"
  · rw [if_neg h]
    exact binds_separated ", " q.columns fun c _ => c.binds_pieces

theorem binds_groupPieces : Binds q.groupPieces [] := by
  unfold groupPieces
  split
  · exact binds_nil
  · exact (binds_text _).cons_text _

theorem binds_orderPieces : Binds q.orderPieces q.orderValues := by
  unfold orderPieces orderValues
  by_cases h : q.orders.isEmpty = true
  · rw [if_pos h, List.isEmpty_iff.1 h]
    exact binds_nil
  · rw [if_neg h]
    exact (binds_separated ", " q.orders fun o _ => o.binds_pieces).cons_text _

theorem binds_extentPieces (d : Dialect) : Binds (q.extentPieces d) [] := by
  cases hl : q.limit <;> cases ho : q.offset <;> simp only [extentPieces, hl, ho]
  · exact binds_nil
  · split <;> exact fun _ => rfl
  · exact binds_text _
  · exact (binds_text _).cons_text _

/-- **A selection binds the values of its parts**, in the order in which they are written. -/
theorem binds_selectPieces (d : Dialect) (table : String) :
    Binds (q.selectPieces d table) (q.columnValues ++ q.coreValues ++ q.orderValues) := by
  have hhead : Binds (.text "SELECT " :: (if q.distinct then [.text "DISTINCT "] else [])) [] := by
    split <;> exact fun _ => rfl
  have hfrom : Binds [.text " FROM ", .text table] [] := fun _ => rfl
  have h := hhead.append q.binds_columnPieces |>.append hfrom
    |>.append (binds_flatMap q.joins fun j _ => j.binds_pieces)
    |>.append (Clause.binds_listPieces " WHERE " q.wheres) |>.append q.binds_groupPieces
    |>.append (Clause.binds_listPieces " HAVING " q.havings) |>.append q.binds_orderPieces
    |>.append (q.binds_extentPieces d)
  simpa only [selectPieces, coreValues, List.nil_append, List.append_nil, List.append_assoc] using h

/-- An aggregate keeps the values of columns only when these are the distinct rows it counts. -/
theorem binds_aggregatePieces (d : Dialect) (table : String) (a : Aggregate) (column : String) :
    Binds (q.aggregatePieces d table a column)
      ((if a = .count ∧ q.distinct then q.columnValues else []) ++ q.coreValues) := by
  unfold aggregatePieces
  by_cases hrows : q.countsRows a = true
  · have ha : a = .count := by simpa [countsRows] using (Bool.and_eq_true_iff.1 hrows).1
    have hcolumns : q.counted.columnValues = if q.distinct then q.columnValues else [] := by
      cases hd : q.distinct <;> cases hc : q.columns <;>
        simp [counted, unbounded, columnValues, Column.values, hd, hc]
    have hcore : q.counted.coreValues = q.coreValues := by simp only [counted]; split <;> rfl
    have horders : q.counted.orderValues = [] := by simp only [counted]; split <;> rfl
    have h := (q.counted.binds_selectPieces d table).cons_text
      ("SELECT " ++ a.expression column ++ " FROM (") |>.append_text ") AS aggregate_table"
    rw [hcolumns, hcore, horders, List.append_nil] at h
    rw [if_pos hrows]
    simpa only [ha, true_and] using h
  · have hdistinct : ¬(a = .count ∧ q.distinct = true) := fun h => by simp [countsRows, h] at hrows
    rw [if_neg hrows, if_neg hdistinct, ← List.append_nil ([] ++ q.coreValues)]
    exact (q.aggregated a column).binds_selectPieces d table

theorem binds_rowPieces (row : List Operand) :
    Binds (rowPieces row) (row.flatMap Operand.values) :=
  (binds_separated ", " row fun o _ => o.binds_pieces).append_text ")" |>.cons_text "("

theorem binds_insertPieces (table : String) (columns : List String) (rows : List (List Operand)) :
    Binds (insertPieces table columns rows)
      (if columns.isEmpty then [] else rows.flatMap (·.flatMap Operand.values)) := by
  unfold insertPieces
  refine Binds.cons_text (Binds.cons_text ?_ table) "INSERT INTO "
  split
  · exact binds_text _
  · have hrows := binds_separated ", " rows fun row _ => binds_rowPieces row
    exact hrows.cons_text _ |>.cons_text _ |>.cons_text _

theorem binds_updatePieces (table : String) (assignments : List Assignment) :
    Binds (q.updatePieces table assignments)
      (assignments.flatMap (fun a => a.2.values) ++ Clause.listValues q.wheres) := by
  have hsets : Binds (separated ", " (assignments.map assignmentPieces))
      (assignments.flatMap fun a => a.2.values) :=
    binds_separated ", " assignments fun a _ => (a.2.binds_pieces.cons_text _).cons_text _
  exact (((hsets.cons_text _).cons_text _).cons_text _).append (Clause.binds_listPieces _ q.wheres)

end Query

/-- A statement laid out in any form binds the values of this form. -/
theorem Form.binds_layout (d : Dialect) (table : String) (q : Query) (f : Form) :
    Binds (f.layout d table q) (f.values q) := by
  cases f with
  | select => exact q.binds_selectPieces d table
  | probe =>
    have h := q.probe.binds_selectPieces d table
    rwa [show q.probe.columnValues = [] from rfl, show q.probe.orderValues = [] from rfl,
      List.nil_append, List.append_nil] at h
  | aggregate a column => exact q.binds_aggregatePieces d table a column
  | insert columns rows => exact Query.binds_insertPieces table columns rows
  | update assignments => exact q.binds_updatePieces table assignments
  | delete => exact ((Clause.binds_listPieces _ q.wheres).cons_text _).cons_text _
  | truncate => exact binds_text _

/-- **A statement binds the values of its parts.** Whatever form a query is compiled in, the
statement binds the values of the query in the order in which its parts are written, each as often
as it stands there. -/
theorem bindings_eq_values {d : Dialect} {q : Query} {f : Form} {s : Statement}
    (h : f.statement d q = .ok s) : s.bindings = f.values q := by
  rw [Form.statement_eq] at h
  cases hc : f.check q with
  | error cause => rw [hc] at h; cases h
  | ok table =>
    rw [hc] at h
    exact (f.binds_layout d table q).finish h

set_option maxRecDepth 2000 in
/-- Values in most parts of a selection; the comparison with null has none. -/
theorem bindings_eq_values_parts :
    let q : Query :=
      { Query.on "t" with
        columns := [.raw ⟨"?", [.int 1]⟩]
        joins := [⟨.inner, "u", [.value "b" "=" (.int 2) .and]⟩]
        wheres :=
          [.test .and (.compare "c" "=" (.value .null)), .group .or [],
            .group .or [.test .and (.among "d" [.int 3, .int 4] false)]]
        orders := [.raw ⟨"f = ?", [.int 5]⟩] }
    let s : Statement :=
      ⟨"SELECT ? FROM t INNER JOIN u ON b = ? WHERE c IS NULL OR (d IN (?, ?)) ORDER BY f = ?",
        [.int 1, .int 2, .int 3, .int 4, .int 5]⟩
    Form.select.statement .generic q = .ok s ∧ s.bindings = Form.select.values q := by
  intro q s
  have h : Form.select.statement .generic q = .ok s := rfl
  exact ⟨h, bindings_eq_values h⟩

/-- A row given without columns is not bound: the row of defaults is added in its place. -/
theorem insert_defaults_drops_row :
    ¬ ∀ (d : Dialect) (q : Query) (columns : List String) (rows : List (List Operand))
      (s : Statement), (Form.insert columns rows).statement d q = .ok s →
        s.bindings = rows.flatMap (·.flatMap Operand.values) := by
  intro h
  have hs : (Form.insert [] [[.value (.int 1)]]).statement .generic (Query.on "t") =
      .ok ⟨"INSERT INTO t DEFAULT VALUES", []⟩ := rfl
  exact List.cons_ne_nil _ _ (h _ _ _ _ _ hs).symm

end ActiveRow
