import ActiveRow.Proofs.Compilation
import ActiveRow.Proofs.Predicate.Pruning

/-!
# The wording of statements

Apart from operators and places, a statement has fixed texts and texts that its query gives: the
names of tables and columns, what is raw, and numbers of rows. What is raw may stand character by
character, since its markers are looked for.

* `Piece.fixedTexts`: the fixed texts.
* `Query.wording`, `Form.wording`: the texts that a query and a form give.
-/

namespace ActiveRow

namespace Piece

/-- The texts that statements have whatever their query gives. -/
def fixedTexts : List String :=
  ["SELECT ", "DISTINCT ", "*", " FROM ", " WHERE ", " GROUP BY ", " HAVING ", " ORDER BY ", "ASC",
    "DESC", " LIMIT 18446744073709551615", ") AS aggregate_table", "INNER JOIN", "LEFT JOIN",
    "RIGHT JOIN", "CROSS JOIN", " ON ", "AND", "OR", " ", ", ", "(", ")", " (", " IS NULL",
    " IS NOT NULL", "1 = 1", "0 = 1", " IN (", " NOT IN (", " BETWEEN ", " NOT BETWEEN ", " AND ",
    "UPDATE ", " SET ", " = ", "DELETE FROM ", "INSERT INTO ", " DEFAULT VALUES", ") VALUES "]

/-- Whether a piece is no text, a fixed one or one of `texts`. -/
def Among (texts : List String) : Piece → Prop
  | text s => s ∈ fixedTexts ∨ s ∈ texts
  | slot _ | flaw _ => True

theorem among_fixed {s : String} (texts : List String) (h : s ∈ fixedTexts) :
    (text s).Among texts :=
  .inl h

theorem among_given {s : String} {texts : List String} (h : s ∈ texts) : (text s).Among texts :=
  .inr h

theorem Among.mono {texts texts' : List String} (h : texts ⊆ texts') {p : Piece}
    (hp : p.Among texts) : p.Among texts' := by
  cases p with
  | text s => exact hp.imp_right fun hs => h hs
  | _ => trivial

variable {texts : List String}

theorem among_separated {parts : List (List Piece)} (h : ∀ ps ∈ parts, ∀ p ∈ ps, p.Among texts) :
    ∀ p ∈ separated ", " parts, p.Among texts := by
  unfold separated
  induction parts with
  | nil => simp
  | cons ps parts ih =>
    rw [List.forall_mem_cons] at h
    cases parts with
    | nil => simpa using h.1
    | cons qs parts =>
      rw [List.intercalate_cons_cons, List.forall_mem_append, List.forall_mem_append]
      exact ⟨⟨h.1, by simp [Among, fixedTexts]⟩, ih h.2⟩

theorem among_slots (vs : List Value) : ∀ p ∈ slots vs, p.Among texts := by
  refine among_separated fun ps hps => ?_
  obtain ⟨v, -, rfl⟩ := List.mem_map.1 hps
  simp [Among]

end Piece

open Piece (Among among_separated)

/-! ### Texts that are given -/

/-- A fragment as a whole, and its characters. -/
def Raw.wording (r : Raw) : List String := r.sql :: r.sql.toList.map String.singleton

def Operand.wording : Operand → List String
  | value _ => []
  | raw r => r.wording

/-- The texts of a test but for its operator. -/
def Test.wording : Test → List String
  | compare column _ operand => column :: operand.wording
  | among column _ _ => [column]
  | isNull column _ => [column]
  | between column _ _ _ => [column]
  | columns first _ second => [first, second]
  | raw r => r.wording

/-- The texts of tests at any depth. -/
def Clause.listWording (cs : List Clause) : List String := (listTests cs).flatMap Test.wording

def JoinCondition.wording : JoinCondition → List String
  | columns first _ second _ => [first, second]
  | value column _ _ _ => [column]

def Join.wording (j : Join) : List String :=
  j.table :: j.conditions.flatMap JoinCondition.wording

def Column.wording : Column → List String
  | name n => [n]
  | raw r => r.wording

def Order.wording : Order → List String
  | column n _ => [n]
  | raw r => r.wording

/-- The texts that the extent of a query gives. -/
def Query.extentWording (q : Query) : List String :=
  (q.limit.map fun n => " LIMIT " ++ Nat.repr n.toNat).toList ++
    (q.offset.map fun n => " OFFSET " ++ Nat.repr n.toNat).toList

/-- The texts that a query gives, but for its operators. -/
def Query.wording (q : Query) : List String :=
  q.columns.flatMap Column.wording ++ q.joins.flatMap Join.wording ++
    Clause.listWording q.wheres ++ [String.intercalate ", " q.groups] ++
    Clause.listWording q.havings ++ q.orders.flatMap Order.wording ++ q.extentWording

def Assignment.wording (a : Assignment) : List String := a.1 :: a.2.wording

namespace Form

/-- The texts that a query gives to a statement of this form, but for its operators. -/
def wording (d : Dialect) (table : String) (q : Query) : Form → List String
  | select => table :: q.wording
  | probe => table :: q.probe.wording
  | aggregate a column =>
    if q.countsRows a then
      ("SELECT " ++ a.expression column ++ " FROM (") :: table :: q.counted.wording
    else table :: (q.aggregated a column).wording
  | insert columns rows =>
    table :: String.intercalate ", " columns :: rows.flatMap (·.flatMap Operand.wording)
  | update assignments =>
    table :: (assignments.flatMap Assignment.wording ++ Clause.listWording q.wheres)
  | delete => table :: Clause.listWording q.wheres
  | truncate => [emptying d ++ table]

end Form

/-! ### Pieces without operators -/

namespace Raw

theorem among_scan (cs : List Char) : ∀ (quoted : Bool) (vs : List Value),
    ∀ p ∈ (scan quoted vs cs).1, p.Among (cs.map String.singleton) := by
  induction cs with
  | nil => simp [scan]
  | cons c cs ih =>
    have hmore : ∀ quoted vs, ∀ p ∈ (scan quoted vs cs).1,
        p.Among ((c :: cs).map String.singleton) := fun quoted vs p hp =>
      (ih quoted vs p hp).mono (List.subset_cons_self _ _)
    have hthis : (Piece.text (String.singleton c)).Among ((c :: cs).map String.singleton) :=
      .inr List.mem_cons_self
    intro quoted vs
    unfold scan
    split
    · exact List.forall_mem_cons.2 ⟨hthis, hmore _ _⟩
    · split
      · split
        · exact List.forall_mem_cons.2 ⟨trivial, hmore _ _⟩
        · exact List.forall_mem_cons.2 ⟨hthis, hmore _ _⟩
      · exact List.forall_mem_cons.2 ⟨hthis, hmore _ _⟩

theorem among_pieces (r : Raw) : ∀ p ∈ r.pieces, p.Among r.wording := by
  have hscan : ∀ p ∈ (scan false r.bindings r.sql.toList).1, p.Among r.wording := fun p hp =>
    (among_scan r.sql.toList false r.bindings p hp).mono (List.subset_cons_self _ _)
  unfold pieces
  split
  · exact List.forall_mem_singleton.2 (.inr List.mem_cons_self)
  · simp only
    split
    · exact hscan
    · exact List.forall_mem_append.2 ⟨hscan, List.forall_mem_singleton.2 trivial⟩

end Raw

theorem Operand.among_pieces (o : Operand) : ∀ p ∈ o.pieces, p.Among o.wording := by
  cases o with
  | value v => exact List.forall_mem_singleton.2 trivial
  | raw r => exact r.among_pieces

theorem Column.among_pieces (c : Column) : ∀ p ∈ c.pieces, p.Among c.wording := by
  cases c with
  | name n => exact List.forall_mem_singleton.2 (.inr List.mem_cons_self)
  | raw r => exact r.among_pieces

theorem Order.among_pieces (o : Order) : ∀ p ∈ o.pieces, p.Among o.wording := by
  cases o with
  | column n direction =>
    cases direction <;> simp [pieces, wording, Direction.sql, Among, Piece.fixedTexts]
  | raw r => exact r.among_pieces

/-- Pieces of parts, with commas between them, are among the texts of the parts. -/
theorem Piece.among_separated_map {α : Type} {f : α → List Piece} {g : α → List String}
    (h : ∀ x, ∀ p ∈ f x, p.Among (g x)) (l : List α) :
    ∀ p ∈ separated ", " (l.map f), p.Among (l.flatMap g) := by
  refine among_separated fun ps hps p hp => ?_
  obtain ⟨x, hx, rfl⟩ := List.mem_map.1 hps
  exact (h x p hp).mono fun s hs => List.mem_flatMap.2 ⟨x, hx, hs⟩

namespace Query

variable (q : Query)

theorem among_columnPieces :
    ∀ p ∈ q.columnPieces, p.Among (q.columns.flatMap Column.wording) := by
  unfold columnPieces
  split
  · simp [Among, Piece.fixedTexts]
  · exact Piece.among_separated_map Column.among_pieces q.columns

theorem among_groupPieces :
    ∀ p ∈ q.groupPieces, p.Among [String.intercalate ", " q.groups] := by
  unfold groupPieces
  split
  · simp
  · simp [Among, Piece.fixedTexts]

theorem among_orderPieces : ∀ p ∈ q.orderPieces, p.Among (q.orders.flatMap Order.wording) := by
  unfold orderPieces
  split
  · simp
  · refine List.forall_mem_cons.2 ⟨by simp [Among, Piece.fixedTexts], ?_⟩
    exact Piece.among_separated_map Order.among_pieces q.orders

theorem among_extentPieces (d : Dialect) : ∀ p ∈ q.extentPieces d, p.Among q.extentWording := by
  cases hl : q.limit <;> cases ho : q.offset <;> cases d <;>
    simp [extentPieces, extentWording, hl, ho, Among, Piece.fixedTexts]

theorem among_assignmentPieces (a : Assignment) :
    ∀ p ∈ assignmentPieces a, p.Among a.wording := by
  refine List.forall_mem_append.2 ⟨?_, fun p hp => ?_⟩
  · simp [Among, Piece.fixedTexts, Assignment.wording]
  · exact (a.2.among_pieces p hp).mono (List.subset_cons_self _ _)

theorem among_rowPieces (row : List Operand) :
    ∀ p ∈ rowPieces row, p.Among (row.flatMap Operand.wording) := by
  refine List.forall_mem_append.2 ⟨List.forall_mem_cons.2 ⟨?_, ?_⟩, ?_⟩
  · simp [Among, Piece.fixedTexts]
  · exact Piece.among_separated_map Operand.among_pieces row
  · simp [Among, Piece.fixedTexts]

theorem among_insertPieces (table : String) (columns : List String) (rows : List (List Operand)) :
    ∀ p ∈ insertPieces table columns rows, p.Among (table :: String.intercalate ", " columns ::
      rows.flatMap (·.flatMap Operand.wording)) := by
  have hrows := Piece.among_separated_map among_rowPieces rows
  unfold insertPieces
  split
  · simp [Among, Piece.fixedTexts]
  · refine List.forall_mem_append.2 ⟨?_, List.forall_mem_append.2 ⟨?_, fun p hp => ?_⟩⟩
    · simp [Among, Piece.fixedTexts]
    · simp [Among, Piece.fixedTexts]
    · exact (hrows p hp).mono fun s hs => List.mem_cons_of_mem _ (List.mem_cons_of_mem _ hs)

end Query

end ActiveRow
