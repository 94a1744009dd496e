import ActiveRow.Proofs.Compilation.Markers

/-!
# Gaps for raw fragments

A gap is one place of a query, or of what a statement writes, that a raw fragment can stand in:
a selected column, a test or the right-hand side of a comparison at any depth of the tests of rows
or of groups, an order, an operand of an added row, or an assignment. Whatever fills a gap, the
statement is laid out the same around it.

* `encloses_layout`: the pieces before and behind a written gap do not depend on what fills it.
* `statement_unwritten`: a form that does not write a gap does not look at what fills it.
* `statement_filled`: a statement with a filled gap fails exactly when the fragment has fewer
  markers than bindings; of more markers than bindings, the last ones stay in the text.
-/

namespace ActiveRow

/-! ### Kinds of gaps -/

/-- A gap in a test: the test itself, or the right-hand side of a comparison. -/
inductive TestGap where
  | whole
  | operand (column operator : String)

def TestGap.fill (r : Raw) : TestGap → Test
  | whole => .raw r
  | operand column operator => .compare column operator (.raw r)

/-- A gap in a list of clauses, as deep in groups as may be. -/
inductive ClauseGap where
  | test (before : List Clause) (link : Connector) (gap : TestGap) (after : List Clause)
  | group (before : List Clause) (link : Connector) (inner : ClauseGap) (after : List Clause)

def ClauseGap.fill (r : Raw) : ClauseGap → List Clause
  | test before link gap after => before ++ .test link (gap.fill r) :: after
  | group before link inner after => before ++ .group link (inner.fill r) :: after

/-- A gap in a query, or in the rows or assignments of a form of statement. -/
inductive Gap where
  | column (before after : List Column)
  | filter (gap : ClauseGap)
  | having (gap : ClauseGap)
  | order (before after : List Order)
  | added (columns : List String) (above : List (List Operand)) (before after : List Operand)
      (below : List (List Operand))
  | assigned (before : List Assignment) (column : String) (after : List Assignment)

namespace Gap

/-- A query whose gap is filled. -/
def query (q : Query) (r : Raw) : Gap → Query
  | column before after => { q with columns := before ++ .raw r :: after }
  | filter gap => { q with wheres := gap.fill r }
  | having gap => { q with havings := gap.fill r }
  | order before after => { q with orders := before ++ .raw r :: after }
  | _ => q

/-- A form of statement whose gap is filled. -/
def form (f : Form) (r : Raw) : Gap → Form
  | added columns above before after below =>
    .insert columns (above ++ (before ++ .raw r :: after) :: below)
  | assigned before name after => .update (before ++ (name, .raw r) :: after)
  | _ => f

/-- The statement of a query in a form, whose gap is filled. -/
def statement (d : Dialect) (q : Query) (f : Form) (r : Raw) (g : Gap) : Except Fault Statement :=
  (g.form f r).statement d (g.query q r)

/-- Whether a form of statement writes what stands in a gap. -/
def IsWritten (q : Query) (f : Form) : Gap → Prop
  | column _ _ => f = .select ∨ ∃ of, f = .aggregate .count of ∧ q.distinct = true
  | filter _ => f.Filters
  | having _ => f = .select ∨ f = .probe ∨ ∃ a of, f = .aggregate a of
  | order _ _ => f = .select
  | added columns _ _ _ _ => columns ≠ []
  | assigned _ _ _ => True

end Gap

/-! ### Pieces around a fragment -/

theorem Piece.sound_of_finish {style : Placeholder} {ps : List Piece} {s : Statement}
    (h : finish style ps = .ok s) : firstFlaw? ps = none := by
  unfold finish at h
  split at h
  · cases h
  · assumption

/-- Pieces that write a fragment once, and are the same around it for every fragment. -/
def Encloses (ps : Raw → List Piece) : Prop :=
  ∃ before after : List Piece, ∀ r, ps r = before ++ r.pieces ++ after

namespace Encloses

theorem raw : Encloses Raw.pieces := ⟨[], [], fun r => by simp⟩

variable {ps : Raw → List Piece}

theorem around (h : Encloses ps) (front back : List Piece) :
    Encloses fun r => front ++ ps r ++ back := by
  obtain ⟨before, after, h⟩ := h
  refine ⟨front ++ before, after ++ back, fun r => ?_⟩
  simp [h r]

theorem prepend (h : Encloses ps) (front : List Piece) : Encloses fun r => front ++ ps r := by
  have hall := h.around front []
  simpa using hall

theorem append (h : Encloses ps) (back : List Piece) : Encloses fun r => ps r ++ back :=
  h.around [] back

theorem of_eq (h : Encloses ps) {ps' : Raw → List Piece} (heq : ∀ r, ps' r = ps r) :
    Encloses ps' := by
  rwa [funext heq]

/-- A part of a separated list. -/
theorem separated (h : Encloses ps) (separator : String) (before after : List (List Piece)) :
    Encloses fun r => Piece.separated separator (before ++ ps r :: after) := by
  induction before with
  | nil =>
    cases after with
    | nil => exact h.of_eq fun r => by simp [Piece.separated, List.intercalate]
    | cons p after =>
      exact (h.append ([.text separator] ++ Piece.separated separator (p :: after))).of_eq
        fun r => by simp [Piece.separated, List.intercalate_cons_cons]
  | cons p before ih =>
    refine (ih.prepend (p ++ [.text separator])).of_eq fun r => ?_
    cases before with
    | nil => simp [Piece.separated, List.intercalate_cons_cons]
    | cons p' before => simp [Piece.separated, List.intercalate_cons_cons]

end Encloses

/-! ### Tests -/

theorem TestGap.encloses_pieces (g : TestGap) : Encloses fun r => (g.fill r).pieces := by
  cases g with
  | whole => exact .raw
  | operand column operator =>
    exact (Encloses.raw.prepend
      [.text column, .text " ", .text (Operator.written operator), .text " "]).of_eq fun r => by
        simp [TestGap.fill, Test.pieces, Operand.isNull, Operand.pieces]

namespace ClauseGap

theorem areVacant_append (before : List Clause) (c : Clause) (after : List Clause)
    (hc : c.isVacant = false) : Clause.areVacant (before ++ c :: after) = false := by
  induction before with
  | nil => simp [Clause.areVacant, hc]
  | cons b before ih => simp [Clause.areVacant, ih]

/-- A list with a gap is never left out. -/
theorem areVacant_fill (r : Raw) : ∀ g : ClauseGap, Clause.areVacant (g.fill r) = false
  | test before link gap after => areVacant_append before _ after rfl
  | group before link inner after =>
    areVacant_append before _ after (by rw [Clause.isVacant]; exact areVacant_fill r inner)

theorem fill_ne_nil (r : Raw) (g : ClauseGap) : g.fill r ≠ [] := by
  cases g <;> simp [fill]

/-- The tokens of a list around one of its clauses that is written. -/
theorem flatMap_listTokens (before : List Clause) {c : Raw → Clause} (after : List Clause)
    (hvacant : ∀ r, (c r).isVacant = false) {link : Connector} (hlink : ∀ r, (c r).link = link)
    (h : Encloses fun r => (c r).tokens.flatMap Token.pieces) : ∀ first : Bool, Encloses fun r =>
      (Clause.listTokens first (before ++ c r :: after)).flatMap Token.pieces := by
  induction before with
  | nil =>
    intro first
    refine (h.around ((if first then [] else [Token.connector link]).flatMap Token.pieces)
      ((Clause.listTokens false after).flatMap Token.pieces)).of_eq fun r => ?_
    simp [Clause.listTokens, hvacant, hlink]
  | cons b before ih =>
    intro first
    by_cases hb : b.isVacant = true
    · refine (ih first).of_eq fun r => ?_
      simp [Clause.listTokens, hb]
    · refine ((ih false).prepend (((if first then [] else [Token.connector b.link]) ++
        b.tokens).flatMap Token.pieces)).of_eq fun r => ?_
      simp [Clause.listTokens, hb]

theorem encloses_tokens : ∀ (g : ClauseGap) (first : Bool),
    Encloses fun r => (Clause.listTokens first (g.fill r)).flatMap Token.pieces
  | test before link gap after =>
    flatMap_listTokens before after (fun _ => rfl) (fun _ => rfl) <|
      gap.encloses_pieces.of_eq fun r => by simp [Clause.tokens, Token.pieces]
  | group before link inner after =>
    flatMap_listTokens before after (fun r => by rw [Clause.isVacant]; exact areVacant_fill r inner)
      (fun _ => rfl) <|
      ((encloses_tokens inner true).around [.text "("] [.text ")"]).of_eq fun r => by
        simp [Clause.tokens, Token.pieces]

theorem encloses_pieces (keyword : String) (g : ClauseGap) :
    Encloses fun r => Clause.listPieces keyword (g.fill r) := by
  refine ((g.encloses_tokens true).prepend [.text keyword]).of_eq fun r => ?_
  rw [Clause.listPieces, areVacant_fill]
  rfl

end ClauseGap

/-! ### Statements -/

namespace Gap

variable {q : Query} {f : Form}

/-- The rows of a filled gap have the lengths they have with any other fragment. -/
theorem unevenRow?_filled (r r' : Raw) (n : Nat) (before after : List Operand)
    (below : List (List Operand)) : ∀ (above : List (List Operand)) (i : Nat),
    Query.unevenRow? n i (above ++ (before ++ .raw r :: after) :: below) =
      Query.unevenRow? n i (above ++ (before ++ .raw r' :: after) :: below)
  | [], i => by simp [Query.unevenRow?]
  | row :: above, i => by
    have ih := unevenRow?_filled r r' n before after below above (i + 1)
    simp only [List.cons_append, Query.unevenRow?, ih]

/-- **A fragment is not looked at by the checks**, so they come out alike for all fragments. -/
theorem check_filled (r r' : Raw) (g : Gap) :
    (g.form f r).check (g.query q r) = (g.form f r').check (g.query q r') := by
  cases g with
  | added columns above before after below =>
    simp only [Form.check, Form.refusal?, form, query, unevenRow?_filled r r']
  | assigned before column after => simp [Form.check, Form.refusal?, form, query]
  | _ => cases f <;> rfl

theorem encloses_columns (d : Dialect) (table : String) (q : Query) (before after : List Column) :
    Encloses fun r =>
      ({ q with columns := before ++ .raw r :: after } : Query).selectPieces d table := by
  have hcolumns : Encloses fun r => ({ q with columns := before ++ .raw r :: after } :
      Query).columnPieces := by
    refine (Encloses.raw.separated ", " (before.map Column.pieces)
      (after.map Column.pieces)).of_eq fun r => ?_
    simp [Query.columnPieces, Column.pieces]
  refine (hcolumns.around (.text "SELECT " :: if q.distinct then [.text "DISTINCT "] else [])
    ([.text " FROM ", .text table] ++ q.joins.flatMap Join.pieces ++
      Clause.listPieces " WHERE " q.wheres ++ q.groupPieces ++
      Clause.listPieces " HAVING " q.havings ++ q.orderPieces ++ q.extentPieces d)).of_eq
    fun r => ?_
  simp [Query.selectPieces, Query.groupPieces, Query.orderPieces, Query.extentPieces]

theorem encloses_havings (d : Dialect) (table : String) (q : Query) (g : ClauseGap) :
    Encloses fun r => ({ q with havings := g.fill r } : Query).selectPieces d table := by
  refine ((g.encloses_pieces " HAVING ").around
    (.text "SELECT " :: (if q.distinct then [.text "DISTINCT "] else []) ++ q.columnPieces ++
      [.text " FROM ", .text table] ++ q.joins.flatMap Join.pieces ++
      Clause.listPieces " WHERE " q.wheres ++ q.groupPieces)
    (q.orderPieces ++ q.extentPieces d)).of_eq fun r => ?_
  simp [Query.selectPieces, Query.columnPieces, Query.groupPieces, Query.orderPieces,
    Query.extentPieces]

theorem encloses_orders (d : Dialect) (table : String) (q : Query) (before after : List Order) :
    Encloses fun r =>
      ({ q with orders := before ++ .raw r :: after } : Query).selectPieces d table := by
  have horders : Encloses fun r => ({ q with orders := before ++ .raw r :: after } :
      Query).orderPieces := by
    refine ((Encloses.raw.separated ", " (before.map Order.pieces)
      (after.map Order.pieces)).prepend [.text " ORDER BY "]).of_eq fun r => ?_
    simp [Query.orderPieces, Order.pieces]
  refine (horders.around
    (.text "SELECT " :: (if q.distinct then [.text "DISTINCT "] else []) ++ q.columnPieces ++
      [.text " FROM ", .text table] ++ q.joins.flatMap Join.pieces ++
      Clause.listPieces " WHERE " q.wheres ++ q.groupPieces ++
      Clause.listPieces " HAVING " q.havings) (q.extentPieces d)).of_eq fun r => ?_
  simp [Query.selectPieces, Query.columnPieces, Query.groupPieces, Query.extentPieces]

theorem encloses_rows (table : String) {columns : List String} (h : columns ≠ [])
    (above : List (List Operand)) (before after : List Operand) (below : List (List Operand)) :
    Encloses fun r =>
      Query.insertPieces table columns (above ++ (before ++ .raw r :: after) :: below) := by
  have hrow : Encloses fun r => Query.rowPieces (before ++ .raw r :: after) := by
    refine ((Encloses.raw.separated ", " (before.map Operand.pieces)
      (after.map Operand.pieces)).around [.text "("] [.text ")"]).of_eq fun r => ?_
    simp [Query.rowPieces, Operand.pieces]
  refine ((hrow.separated ", " (above.map Query.rowPieces) (below.map Query.rowPieces)).prepend
    [.text "INSERT INTO ", .text table, .text " (", .text (String.intercalate ", " columns),
      .text ") VALUES "]).of_eq fun r => ?_
  simp [Query.insertPieces, h]

theorem encloses_assignments (table : String) (q : Query) (before : List Assignment)
    (column : String) (after : List Assignment) :
    Encloses fun r => q.updatePieces table (before ++ (column, .raw r) :: after) := by
  have hvalue : Encloses fun r => Query.assignmentPieces (column, .raw r) :=
    Encloses.raw.prepend [.text column, .text " = "]
  refine ((hvalue.separated ", " (before.map Query.assignmentPieces)
    (after.map Query.assignmentPieces)).around [.text "UPDATE ", .text table, .text " SET "]
    (Clause.listPieces " WHERE " q.wheres)).of_eq fun r => ?_
  simp [Query.updatePieces]

/-- **One place for what fills a gap.** The layout writes it there, and is the same around it for
every fragment. -/
theorem encloses_layout (d : Dialect) (table : String) {g : Gap} (h : g.IsWritten q f) :
    Encloses fun r => (g.form f r).layout d table (g.query q r) := by
  cases g with
  | column before after =>
    rcases h with rfl | ⟨c, rfl, hdistinct⟩
    · exact encloses_columns d table q before after
    · -- a distinct count keeps the columns, in the statement that is counted
      refine ((encloses_columns d table q.unbounded before after).around
        [.text ("SELECT " ++ Aggregate.count.expression c ++ " FROM (")]
        [.text ") AS aggregate_table"]).of_eq fun r => ?_
      simp [Form.layout, form, query, Query.aggregatePieces, Query.countsRows, Query.counted,
        Query.unbounded, hdistinct]
  | filter gap =>
    obtain ⟨before, after, hlayout⟩ := h d table q
    refine ((gap.encloses_pieces " WHERE ").around before after).of_eq fun r => ?_
    exact hlayout (gap.fill r)
  | having gap =>
    rcases h with rfl | rfl | ⟨a, c, rfl⟩
    · exact encloses_havings d table q gap
    · exact encloses_havings d table q.probe gap
    · by_cases ha : a = .count
      · -- with a test of groups, a count has to count the rows of the whole
        refine ((encloses_havings d table q.counted gap).around
          [.text ("SELECT " ++ a.expression c ++ " FROM (")]
          [.text ") AS aggregate_table"]).of_eq fun r => ?_
        have hrows : ({ q with havings := gap.fill r } : Query).countsRows a = true := by
          have hsome := gap.fill_ne_nil r
          simp [Query.countsRows, ha, hsome]
        have hcounted : ({ q with havings := gap.fill r } : Query).counted =
            { q.counted with havings := gap.fill r } := by
          by_cases hx : (!q.distinct || q.columns.isEmpty) = true <;>
            simp [Query.counted, Query.unbounded, hx]
        simp only [Form.layout, form, query, Query.aggregatePieces, hrows, if_true, hcounted]
        rfl
      · refine (encloses_havings d table (q.aggregated a c) gap).of_eq fun r => ?_
        simp [Form.layout, form, query, Query.aggregatePieces, Query.countsRows, ha,
          Query.aggregated, Query.unbounded]
  | order before after =>
    obtain rfl := h
    exact encloses_orders d table q before after
  | added columns above before after below => exact encloses_rows table h above before after below
  | assigned before column after => exact encloses_assignments table q before column after

/-- A form that does not write what stands in a gap is made whatever that is. -/
theorem statement_unwritten (d : Dialect) {g : Gap} (h : ¬g.IsWritten q f) (r r' : Raw) :
    g.statement d q f r = g.statement d q f r' := by
  have hlayout : ∀ table, (g.form f r).layout d table (g.query q r) =
      (g.form f r').layout d table (g.query q r') := by
    intro table
    cases g with
    | column before after =>
      cases f with
      | select => exact absurd (.inl rfl) h
      | aggregate a of =>
        have hplain : ¬(a = .count ∧ q.distinct = true) := by
          rintro ⟨rfl, hdistinct⟩
          exact h (.inr ⟨of, rfl, hdistinct⟩)
        by_cases hdistinct : q.distinct = true
        · have ha : a ≠ .count := fun ha => hplain ⟨ha, hdistinct⟩
          simp [Form.layout, form, query, Query.aggregatePieces, Query.countsRows, ha,
            Query.aggregated, Query.unbounded]
        · simp [Form.layout, form, query, Query.aggregatePieces, Query.countsRows, Query.counted,
            hdistinct, Query.aggregated, Query.unbounded]
      | _ => rfl
    | filter gap =>
      cases f with
      | insert | truncate => rfl
      | select => exact absurd Form.filters_select h
      | probe => exact absurd Form.filters_probe h
      | aggregate a of => exact absurd (Form.filters_aggregate a of) h
      | update values => exact absurd (Form.filters_update values) h
      | delete => exact absurd Form.filters_delete h
    | having gap =>
      cases f with
      | select => exact absurd (.inl rfl) h
      | probe => exact absurd (.inr (.inl rfl)) h
      | aggregate a of => exact absurd (.inr (.inr ⟨a, of, rfl⟩)) h
      | _ => rfl
    | order before after =>
      cases f with
      | select => exact absurd rfl h
      | _ => rfl
    | added columns above before after below =>
      obtain rfl : columns = [] := not_not.1 h
      rfl
    | assigned before name after => exact absurd trivial h
  rw [statement, statement, Form.statement_eq, Form.statement_eq, check_filled r r']
  simp only [hlayout]

/-- What fills the gap before any fragment does. -/
def blank : Raw := ⟨"", []⟩

/-- **Fragments and their bindings.** A statement is to be made that writes what stands in a gap,
and can be made with the gap blank. With a fragment in the gap it is made exactly when the fragment
has a marker for each of its bindings. Then what stands around the gap does not change; the first
markers, as many as there are bindings, are the marks of these bindings, behind what is bound
before them; and all other characters of the fragment are as they were, further markers too. -/
theorem statement_filled {d : Dialect} {g : Gap} (hwritten : g.IsWritten q f)
    (hblank : ∃ s, g.statement d q f blank = .ok s) :
    ∃ before after : List Piece, ∀ r : Raw, g.statement d q f r =
      if r.bindings.length ≤ r.markers then .ok (r.enclosed d.placeholder before after)
      else .error (.validation (.markers r.sql r.bindings.length r.markers)) := by
  obtain ⟨s, hs⟩ := hblank
  cases hcheck : (g.form f blank).check (g.query q blank) with
  | error cause =>
    rw [statement, Form.statement_eq, hcheck] at hs
    cases hs
  | ok table =>
    obtain ⟨before, after, hlayout⟩ := encloses_layout d table hwritten
    have hfilled : ∀ r, g.statement d q f r =
        Piece.finish d.placeholder (before ++ r.pieces ++ after) := by
      intro r
      rw [statement, Form.statement_eq, check_filled r blank, hcheck, ← hlayout]
      rfl
    have hsound : Piece.firstFlaw? (before ++ blank.pieces ++ after) = none :=
      Piece.sound_of_finish (hfilled blank ▸ hs)
    obtain ⟨hbefore, -, hafter⟩ : Piece.firstFlaw? before = none ∧
        Piece.firstFlaw? blank.pieces = none ∧ Piece.firstFlaw? after = none := by
      simpa [Piece.firstFlaw?_append] using hsound
    refine ⟨before, after, fun r => ?_⟩
    rw [hfilled]
    exact Raw.finish_enclosed d.placeholder hbefore hafter r

/-- A test in a group, between two values. -/
theorem statement_filled_grouped :
    let value (column : String) (v : Int64) : Clause :=
      .test .and (.compare column "=" (.value (.int v)))
    let g : Gap := .filter (.group [] .and (.test [value "a" 1] .or .whole []) [value "c" 2])
    let q := Query.on "t"
    g.IsWritten q .select ∧ (∃ s, g.statement .postgres q .select blank = .ok s) ∧
      (∃ before after : List Piece, ∀ r : Raw, g.statement .postgres q .select r =
        if r.bindings.length ≤ r.markers then .ok (r.enclosed .numbered before after)
        else .error (.validation (.markers r.sql r.bindings.length r.markers))) ∧
      g.statement .postgres q .select ⟨"f(?, '?')", [.int 3]⟩ =
        .ok ⟨"SELECT * FROM t WHERE (a = $1 OR f($2, '?')) AND c = $3",
          [.int 1, .int 3, .int 2]⟩ := by
  refine ⟨Form.filters_select, ⟨_, rfl⟩, statement_filled Form.filters_select ⟨_, rfl⟩, ?_⟩
  rw [statement, Form.statement_eq]
  rfl

/-- A marker without a binding is not refused, and stays in the text. -/
theorem unbound_marker_kept :
    ¬ ∀ (d : Dialect) (q : Query) (f : Form) (g : Gap), g.IsWritten q f →
      (∃ s, g.statement d q f blank = .ok s) → ∀ r : Raw, r.bindings ≠ [] →
        r.markers ≠ r.bindings.length →
          ∃ cause, g.statement d q f r = .error (.validation cause) := by
  intro h
  obtain ⟨cause, hrefused⟩ := h .generic (Query.on "t") .select
    (.filter (.test [] .and .whole [.test .and (.compare "c" "=" (.value (.int 2)))]))
    Form.filters_select ⟨_, rfl⟩ ⟨"a = ? AND b = ?", [.int 1]⟩ (by simp) (by decide)
  have hmade : Gap.statement .generic (Query.on "t") .select ⟨"a = ? AND b = ?", [.int 1]⟩
      (.filter (.test [] .and .whole [.test .and (.compare "c" "=" (.value (.int 2)))])) =
      .ok ⟨"SELECT * FROM t WHERE a = ? AND b = ? AND c = ?", [.int 1, .int 2]⟩ := by
    rw [statement, Form.statement_eq]
    rfl
  rw [hmade] at hrefused
  cases hrefused

end Gap

end ActiveRow
