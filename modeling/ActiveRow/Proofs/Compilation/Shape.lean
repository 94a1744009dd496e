import Mathlib.Data.List.Forall2
import ActiveRow.Proofs.Compilation

/-!
# Queries of one shape

Two queries are alike under a relation between values when they are the same but for their bound
values, and the relation holds between the values at the same place of both. A comparison has null
on both sides or on neither, since a test for null is written without a value.
-/

namespace ActiveRow

open List (Forall₂)

/-! ### The shape of a query -/

section

variable (R : Value → Value → Prop)

structure Raw.Alike (r r' : Raw) : Prop where
  sql : r.sql = r'.sql
  bindings : Forall₂ R r.bindings r'.bindings

inductive Operand.Alike : Operand → Operand → Prop
  | value {v v' : Value} (h : R v v') : Alike (.value v) (.value v')
  | raw {r r' : Raw} (h : r.Alike R r') : Alike (.raw r) (.raw r')

inductive Test.Alike : Test → Test → Prop
  | compare (column operator : String) {o o' : Operand} (h : o.Alike R o')
      (hnull : o.isNull = o'.isNull) :
      Alike (.compare column operator o) (.compare column operator o')
  | among (column : String) (negated : Bool) {vs vs' : List Value} (h : Forall₂ R vs vs') :
      Alike (.among column vs negated) (.among column vs' negated)
  | isNull (column : String) (negated : Bool) :
      Alike (.isNull column negated) (.isNull column negated)
  | between (column : String) (negated : Bool) {low low' high high' : Value} (hl : R low low')
      (hh : R high high') :
      Alike (.between column low high negated) (.between column low' high' negated)
  | columns (first operator second : String) :
      Alike (.columns first operator second) (.columns first operator second)
  | raw {r r' : Raw} (h : r.Alike R r') : Alike (.raw r) (.raw r')

inductive Clause.Alike : Clause → Clause → Prop
  | test (link : Connector) {t t' : Test} (h : t.Alike R t') : Alike (.test link t) (.test link t')
  | group (link : Connector) {cs cs' : List Clause} (h : Forall₂ Clause.Alike cs cs') :
      Alike (.group link cs) (.group link cs')

inductive JoinCondition.Alike : JoinCondition → JoinCondition → Prop
  | columns (first operator second : String) (link : Connector) :
      Alike (.columns first operator second link) (.columns first operator second link)
  | value (column operator : String) (link : Connector) {v v' : Value} (h : R v v') :
      Alike (.value column operator v link) (.value column operator v' link)

structure Join.Alike (j j' : Join) : Prop where
  kind : j.kind = j'.kind
  table : j.table = j'.table
  conditions : Forall₂ (JoinCondition.Alike R) j.conditions j'.conditions

inductive Column.Alike : Column → Column → Prop
  | name (n : String) : Alike (.name n) (.name n)
  | raw {r r' : Raw} (h : r.Alike R r') : Alike (.raw r) (.raw r')

inductive Order.Alike : Order → Order → Prop
  | column (n : String) (direction : Direction) : Alike (.column n direction) (.column n direction)
  | raw {r r' : Raw} (h : r.Alike R r') : Alike (.raw r) (.raw r')

/-- **Queries of one shape**, whose values at the same places are related. -/
structure Query.Alike (q q' : Query) : Prop where
  table : q.table = q'.table
  columns : Forall₂ (Column.Alike R) q.columns q'.columns
  distinct : q.distinct = q'.distinct
  joins : Forall₂ (Join.Alike R) q.joins q'.joins
  wheres : Forall₂ (Clause.Alike R) q.wheres q'.wheres
  groups : q.groups = q'.groups
  havings : Forall₂ (Clause.Alike R) q.havings q'.havings
  orders : Forall₂ (Order.Alike R) q.orders q'.orders
  limit : q.limit = q'.limit
  offset : q.offset = q'.offset
  firstInvalid : q.firstInvalid = q'.firstInvalid

structure Assignment.Alike (a a' : Assignment) : Prop where
  column : a.1 = a'.1
  operand : a.2.Alike R a'.2

inductive Form.Alike : Form → Form → Prop
  | select : Alike .select .select
  | probe : Alike .probe .probe
  | aggregate (a : Aggregate) (column : String) : Alike (.aggregate a column) (.aggregate a column)
  | insert (columns : List String) {rows rows' : List (List Operand)}
      (h : Forall₂ (Forall₂ (Operand.Alike R)) rows rows') :
      Alike (.insert columns rows) (.insert columns rows')
  | update {values values' : List Assignment} (h : Forall₂ (Assignment.Alike R) values values') :
      Alike (.update values) (.update values')
  | delete : Alike .delete .delete
  | truncate : Alike .truncate .truncate

inductive Token.Alike : Token → Token → Prop
  | leaf {t t' : Test} (h : t.Alike R t') : Alike (.leaf t) (.leaf t')
  | connector (c : Connector) : Alike (.connector c) (.connector c)
  | openGroup : Alike .openGroup .openGroup
  | closeGroup : Alike .closeGroup .closeGroup

inductive Piece.Alike : Piece → Piece → Prop
  | text (s : String) : Alike (.text s) (.text s)
  | slot {v v' : Value} (h : R v v') : Alike (.slot v) (.slot v')
  | flaw (cause : Invalid) : Alike (.flaw cause) (.flaw cause)

/-- Two outcomes of compiling with the same text: the same fault, or statements of one text whose
values are related one by one. -/
def Paired (x y : Except Fault Statement) : Prop :=
  (∃ cause, x = .error cause ∧ y = .error cause) ∨
    ∃ sql values values', x = .ok ⟨sql, values⟩ ∧ y = .ok ⟨sql, values'⟩ ∧ Forall₂ R values values'

end

end ActiveRow
