import Mathlib
import ActiveRow.Proofs.Compilation.Bindings
import ActiveRow.Proofs.Compilation.Wording

/-!
# Operators in statements

The operators that callers gave stand in a statement where tests and joins compare. They are written
without the blanks around them and in upper case. Beside them a statement has only places, fixed
texts, and the other texts that its query gives.

* `Operator.accepted_written`: an operator that is valid is written as one that is accepted.
* `Query.marks_selectPieces`, `Form.marks_layout`: where operators stand in a statement.
-/

namespace ActiveRow

/-! ### Operators as they are written -/

theorem Text.upper_lower (s : String) : Text.upper (Text.lower s) = Text.upper s := by
  simp only [Text.upper, Text.lower, String.toList_ofList, List.map_map]
  exact congrArg String.ofList (List.map_congr_left fun c _ => c.toUpper_toLower_eq_toUpper)

namespace Operator

/-- The text is an operator that is accepted, in upper case. -/
def Accepted (text : String) : Prop := text ∈ accepted.map Text.upper

theorem accepted_written {operator : String} (h : isValid operator = true) :
    Accepted (written operator) := by
  rw [isValid, List.contains_iff_mem] at h
  rw [written, ← Text.upper_lower]
  exact List.mem_map_of_mem h

end Operator

/-! ### The operators of a query -/

/-- The operators that a test is written with. A comparison with null may be written as a test for
null instead. -/
def Test.operators : Test → List String
  | compare _ operator operand =>
    if operand.isNull ∧ Operator.written operator ∈ nullOperators then [] else [operator]
  | columns _ operator _ => [operator]
  | _ => []

def JoinCondition.operator : JoinCondition → String
  | columns _ operator _ _ => operator
  | value _ operator _ _ => operator

/-- The operators that a join is written with. A cross join has no conditions. -/
def Join.operators (j : Join) : List String :=
  if j.kind = .cross then [] else j.conditions.map JoinCondition.operator

/-- The operators that clauses are written with, from left to right. -/
def Clause.listOperators (cs : List Clause) : List String := (listTests cs).flatMap Test.operators

/-- The operators of joins, row tests and group tests. -/
def Query.operators (q : Query) : List String :=
  q.joins.flatMap Join.operators ++ Clause.listOperators q.wheres ++ Clause.listOperators q.havings

namespace Form

/-- Whether statements of this form have the joins of their query. -/
def Joins : Form → Prop
  | select | probe | aggregate _ _ => True
  | _ => False

/-- The operators that a statement of this form is written with. -/
def operators (q : Query) : Form → List String
  | select | probe | aggregate _ _ => q.operators
  | update _ | delete => Clause.listOperators q.wheres
  | insert _ _ | truncate => []

end Form

/-! ### Where operators stand -/

namespace Piece

/-- These operators stand in the pieces, in this order, each as it is written. Beside them there are
only places, fixed texts and some of `texts`. -/
inductive Marks (texts : List String) : List Piece → List String → Prop where
  | nil : Marks texts [] []
  | operator (operator : String) {ps : List Piece} {ops : List String} (h : Marks texts ps ops) :
    Marks texts (.text (Operator.written operator) :: ps) (operator :: ops)
  | skip {p : Piece} (hp : p.Among texts) {ps : List Piece} {ops : List String}
    (h : Marks texts ps ops) : Marks texts (p :: ps) ops

namespace Marks

variable {texts texts' : List String} {ps ps' : List Piece} {ops ops' : List String}

theorem none (h : ∀ p ∈ ps, p.Among texts) : Marks texts ps [] := by
  induction ps with
  | nil => exact .nil
  | cons p ps ih =>
    rw [List.forall_mem_cons] at h
    exact .skip h.1 (ih h.2)

theorem mono (hsub : texts ⊆ texts') (h : Marks texts ps ops) : Marks texts' ps ops := by
  induction h with
  | nil => exact .nil
  | operator operator _ ih => exact .operator operator ih
  | skip hp _ ih => exact .skip (hp.mono hsub) ih

theorem append (h : Marks texts ps ops) (h' : Marks texts ps' ops') :
    Marks texts (ps ++ ps') (ops ++ ops') := by
  induction h with
  | nil => exact h'
  | operator operator _ ih => exact .operator operator ih
  | skip hp _ ih => exact .skip hp ih

theorem prepend (hps' : ∀ p ∈ ps', p.Among texts) (h : Marks texts ps ops) :
    Marks texts (ps' ++ ps) ops :=
  (none hps').append h

theorem append_none (h : Marks texts ps ops) (hps' : ∀ p ∈ ps', p.Among texts) :
    Marks texts (ps ++ ps') ops := by
  simpa using h.append (none hps')

theorem flatMap {α : Type} {f : α → List Piece} {g given : α → List String} (l : List α)
    (h : ∀ x, Marks (given x) (f x) (g x)) :
    Marks (l.flatMap given) (l.flatMap f) (l.flatMap g) := by
  induction l with
  | nil => exact .nil
  | cons x l ih =>
    rw [List.flatMap_cons, List.flatMap_cons, List.flatMap_cons]
    exact ((h x).mono (List.subset_append_left _ _)).append
      (ih.mono (List.subset_append_right _ _))

/-- An operator between a text and what this is compared with. -/
theorem compared {left : String} (hleft : left ∈ texts) (operator : String)
    (hps : ∀ p ∈ ps, p.Among texts) :
    Marks texts ([.text left, .text " ", .text (Operator.written operator), .text " "] ++ ps)
      [operator] := by
  have hspace : (Piece.text " ").Among texts := among_fixed texts (by simp [fixedTexts])
  exact .skip (among_given hleft) (.skip hspace (.operator operator (.skip hspace (.none hps))))

end Marks

end Piece

open Piece (Among Marks)

theorem Test.marks_pieces (t : Test) : Marks t.wording t.pieces t.operators := by
  cases t with
  | compare column operator operand =>
    have hoperand : ∀ p ∈ operand.pieces, p.Among (column :: operand.wording) := fun p hp =>
      (operand.among_pieces p hp).mono (List.subset_cons_self _ _)
    -- a comparison with null is a test for null, which has no place for the operator
    by_cases hn : operand.isNull ∧ Operator.written operator ∈ nullOperators
    · rw [operators, if_pos hn, pieces]
      refine .none ?_
      split
      · simp [Among, Piece.fixedTexts, wording]
      · split
        · simp [Among, Piece.fixedTexts, wording]
        · rename_i his hnot
          simp_all [nullOperators]
    · have his : ¬(operand.isNull ∧
          (Operator.written operator = "=" ∨ Operator.written operator = "IS")) := by
        rintro ⟨hnull, h | h⟩ <;> exact hn ⟨hnull, by simp [h, nullOperators]⟩
      have hnot : ¬(operand.isNull ∧ (Operator.written operator = "!=" ∨
          Operator.written operator = "<>" ∨ Operator.written operator = "IS NOT")) := by
        rintro ⟨hnull, h | h | h⟩ <;> exact hn ⟨hnull, by simp [h, nullOperators]⟩
      simp only [operators, pieces, if_neg hn, if_neg his, if_neg hnot]
      exact .compared List.mem_cons_self operator hoperand
  | columns first operator second =>
    exact .compared List.mem_cons_self operator (by simp [Among])
  | among column values negated =>
    refine .none ?_
    simp only [pieces]
    split
    · cases negated <;> simp [Among, Piece.fixedTexts]
    · refine List.forall_mem_append.2 ⟨List.forall_mem_append.2 ⟨?_, ?_⟩, ?_⟩
      · cases negated <;> simp [Among, Piece.fixedTexts, wording]
      · exact Piece.among_slots values
      · simp [Among, Piece.fixedTexts]
  | isNull column negated =>
    cases negated <;> exact .none (by simp [pieces, wording, Among, Piece.fixedTexts])
  | between column low high negated =>
    cases negated <;> exact .none (by simp [pieces, wording, Among, Piece.fixedTexts])
  | raw r => exact .none r.among_pieces

/-- What a token gives when it is a test. -/
def Token.gives (f : Test → List String) : Token → List String
  | leaf t => f t
  | _ => []

theorem Token.marks_pieces (t : Token) :
    Marks (t.gives Test.wording) t.pieces (t.gives Test.operators) := by
  cases t with
  | leaf t => exact t.marks_pieces
  | connector c =>
    cases c <;> exact .none (by simp [pieces, Connector.sql, Among, Piece.fixedTexts])
  | openGroup => exact .none (by simp [pieces, Among, Piece.fixedTexts])
  | closeGroup => exact .none (by simp [pieces, Among, Piece.fixedTexts])

namespace Clause

mutual

theorem flatMap_tokens (f : Test → List String) : ∀ c : Clause,
    c.tokens.flatMap (Token.gives f) = c.tests.flatMap f
  | test _ t => by simp [tokens, tests, Token.gives]
  | group _ clauses => by
    simpa [tokens, tests, Token.gives] using flatMap_listTokens f true clauses

/-- Tokens give what the tests give. Groups that are left out have none. -/
theorem flatMap_listTokens (f : Test → List String) (first : Bool) : ∀ cs : List Clause,
    (listTokens first cs).flatMap (Token.gives f) = (listTests cs).flatMap f
  | [] => rfl
  | c :: cs => by
    rw [listTokens, listTests, List.flatMap_append]
    by_cases hv : c.isVacant = true
    · rw [if_pos hv, (isVacant_iff c).1 hv, flatMap_listTokens f first cs]
      rfl
    · have hlink : (if first then [] else [Token.connector c.link]).flatMap (Token.gives f) =
          [] := by
        cases first <;> rfl
      rw [if_neg hv, List.flatMap_append, List.flatMap_append, hlink, flatMap_tokens f c,
        flatMap_listTokens f false cs]
      rfl

end

theorem marks_listPieces {keyword : String} (hkeyword : keyword ∈ Piece.fixedTexts)
    (cs : List Clause) : Marks (listWording cs) (listPieces keyword cs) (listOperators cs) := by
  have htokens := Marks.flatMap (listTokens true cs) Token.marks_pieces
  rw [flatMap_listTokens, flatMap_listTokens] at htokens
  unfold listPieces
  by_cases h : areVacant cs = true
  · rw [if_pos h, listOperators, (areVacant_iff cs).1 h]
    exact .nil
  · rw [if_neg h]
    exact .skip (Piece.among_fixed _ hkeyword) htokens

theorem marks_where (cs : List Clause) :
    Marks (listWording cs) (listPieces " WHERE " cs) (listOperators cs) :=
  marks_listPieces (by simp [Piece.fixedTexts]) cs

theorem marks_having (cs : List Clause) :
    Marks (listWording cs) (listPieces " HAVING " cs) (listOperators cs) :=
  marks_listPieces (by simp [Piece.fixedTexts]) cs

end Clause

namespace Join

theorem marks_conditionPieces (c : JoinCondition) :
    Marks c.wording (conditionPieces c) [c.operator] := by
  cases c with
  | columns first operator second link =>
    exact .compared List.mem_cons_self operator (by simp [Among])
  | value column operator v link =>
    exact .compared List.mem_cons_self operator (by simp [Among])

theorem marks_furtherPieces (c : JoinCondition) :
    Marks c.wording (furtherPieces c) [c.operator] := by
  refine (marks_conditionPieces c).prepend ?_
  cases c.link <;> simp [Connector.sql, Among, Piece.fixedTexts]

theorem marks_pieces (j : Join) : Marks j.wording j.pieces j.operators := by
  obtain ⟨kind, table, conditions⟩ := j
  have hfront : ∀ p ∈ [Piece.text " ", .text kind.sql, .text " ", .text table],
      p.Among (table :: conditions.flatMap JoinCondition.wording) := by
    cases kind <;> simp [JoinKind.sql, Among, Piece.fixedTexts]
  cases conditions with
  | nil => cases kind <;> exact .none (by simpa [pieces, wording] using hfront)
  | cons c rest =>
    have hrest := Marks.flatMap rest marks_furtherPieces
    have hall := ((marks_conditionPieces c).mono (List.subset_append_left _ _)).append
      (hrest.mono (List.subset_append_right _ _))
    rw [← List.map_eq_flatMap] at hall
    have hon : Marks (table :: (c :: rest).flatMap JoinCondition.wording)
        (.text " ON " :: (conditionPieces c ++ rest.flatMap furtherPieces))
        ((c :: rest).map JoinCondition.operator) :=
      .skip (Piece.among_fixed _ (by simp [Piece.fixedTexts]))
        (hall.mono (List.subset_cons_self _ _))
    cases kind
    case cross => exact .none (by simpa [pieces, wording] using hfront)
    all_goals exact hon.prepend hfront

end Join

namespace Query

variable (q : Query)

/-- The texts of the parts of a query are among its own. -/
theorem wording_parts (table : String) :
    q.columns.flatMap Column.wording ⊆ table :: q.wording ∧
      q.joins.flatMap Join.wording ⊆ table :: q.wording ∧
      Clause.listWording q.wheres ⊆ table :: q.wording ∧
      [String.intercalate ", " q.groups] ⊆ table :: q.wording ∧
      Clause.listWording q.havings ⊆ table :: q.wording ∧
      q.orders.flatMap Order.wording ⊆ table :: q.wording ∧
      q.extentWording ⊆ table :: q.wording := by
  unfold wording
  refine ⟨?_, ?_, ?_, ?_, ?_, ?_, ?_⟩ <;> intro s hs <;> grind

theorem marks_selectPieces (d : Dialect) (table : String) :
    Marks (table :: q.wording) (q.selectPieces d table) q.operators := by
  obtain ⟨hcolumns, hjoins, hwheres, hgroups, hhavings, horders, hextent⟩ := q.wording_parts table
  have hfront : ∀ p ∈ Piece.text "SELECT " :: (if q.distinct then [.text "DISTINCT "] else []) ++
      q.columnPieces ++ [.text " FROM ", .text table], p.Among (table :: q.wording) := by
    have htable : (Piece.text table).Among (table :: q.wording) :=
      Piece.among_given List.mem_cons_self
    have hdistinct : ∀ p ∈ if q.distinct then [Piece.text "DISTINCT "] else [],
        p.Among (table :: q.wording) := by split <;> simp [Among, Piece.fixedTexts]
    refine List.forall_mem_append.2 ⟨List.forall_mem_append.2 ⟨?_, fun p hp => ?_⟩, ?_⟩
    · exact List.forall_mem_cons.2 ⟨Piece.among_fixed _ (by simp [Piece.fixedTexts]), hdistinct⟩
    · exact (q.among_columnPieces p hp).mono hcolumns
    · exact List.forall_mem_cons.2 ⟨Piece.among_fixed _ (by simp [Piece.fixedTexts]),
        List.forall_mem_singleton.2 htable⟩
  have hjoined := (Marks.flatMap q.joins Join.marks_pieces).mono hjoins
  have htests := (Clause.marks_where q.wheres).mono hwheres
  have hgrouped := (Clause.marks_having q.havings).mono hhavings
  unfold selectPieces
  exact ((((((hjoined.prepend hfront).append htests).append_none
    fun p hp => (q.among_groupPieces p hp).mono hgroups).append hgrouped).append_none
    fun p hp => (q.among_orderPieces p hp).mono horders).append_none
    fun p hp => (q.among_extentPieces d p hp).mono hextent)

theorem operators_counted : q.counted.operators = q.operators := by
  simp only [counted]
  split <;> rfl

end Query

/-- **Where operators stand.** A statement is written with the operators of its query, those that
its form has a place for, in their order; beside them it has only places, fixed texts and other
texts that its query and its form give. -/
theorem Form.marks_layout (d : Dialect) (table : String) (q : Query) (f : Form) :
    Marks (f.wording d table q) (f.layout d table q) (f.operators q) := by
  cases f with
  | select => exact q.marks_selectPieces d table
  | probe => exact q.probe.marks_selectPieces d table
  | aggregate a column =>
    rw [layout, Query.aggregatePieces, wording]
    split
    · have h := q.counted.marks_selectPieces d table
      rw [Query.operators_counted] at h
      refine .skip (Piece.among_given List.mem_cons_self) (Marks.append_none ?_ ?_)
      · exact h.mono (List.subset_cons_self _ _)
      · simp [Among, Piece.fixedTexts]
    · exact (q.aggregated a column).marks_selectPieces d table
  | update assignments =>
    have htests := (Clause.marks_where q.wheres).mono (List.subset_append_right
      (assignments.flatMap Assignment.wording) _)
    have hset := Piece.among_separated_map Query.among_assignmentPieces assignments
    refine (htests.mono (List.subset_cons_self table _)).prepend
      (List.forall_mem_append.2 ⟨?_, fun p hp => ?_⟩)
    · simp [Among, Piece.fixedTexts, wording]
    · exact (hset p hp).mono fun s hs => List.mem_cons_of_mem _ (List.mem_append_left _ hs)
  | delete =>
    refine ((Clause.marks_where q.wheres).mono (List.subset_cons_self table _)).prepend ?_
    simp [Among, Piece.fixedTexts]
  | insert columns rows => exact .none (Query.among_insertPieces table columns rows)
  | truncate => exact .none (by simp [layout, wording, Among])

end ActiveRow
