import ActiveRow.Proofs.Compilation
import ActiveRow.Proofs.Predicate.Pruning
import ActiveRow.Proofs.Predicate.Verdict

/-!
# The spelling of a predicate

A predicate is spelled out word by word behind its keyword. A row passes the predicate when it
passes these words, read as SQL reads them, so what a statement says of rows is what its query asks
of them.

* `Clause.listPieces_eq`: what is spelled, and that nothing is when there is no word.
* `Verdict.passes_iff_passesWords`: what rows pass the words.
* `Query.testedBy`: both, in every statement of a query.
-/

namespace ActiveRow

open Predicate

namespace Predicate

/-- The pieces that spell a word. -/
def Word.pieces : Word Test → List Piece
  | atom t => t.pieces
  | connector .and => [.text " ", .text "AND", .text " "]
  | connector .or => [.text " ", .text "OR", .text " "]
  | opening => [.text "("]
  | closing => [.text ")"]

/-- Words behind their keyword; no keyword without words. -/
def spelled (keyword : String) : List (Word Test) → List Piece
  | [] => []
  | w :: ws => .text keyword :: (w :: ws).flatMap Word.pieces

theorem pieces_words_alone (t : Token) : (words alone t).flatMap Word.pieces = t.pieces := by
  cases t with
  | leaf t => exact List.append_nil _
  | connector c => cases c <;> rfl
  | openGroup => rfl
  | closeGroup => rfl

/-- The pieces of the words of a predicate. -/
theorem pieces_written (cs : List Clause) :
    (written cs).flatMap Word.pieces = (Clause.listTokens true cs).flatMap Token.pieces := by
  rw [written, List.flatMap_assoc]
  exact List.flatMap_congr fun t _ => pieces_words_alone t

end Predicate

/-- **What is spelled of a predicate** are its words, behind the keyword if there are any. -/
theorem Clause.listPieces_eq (keyword : String) (cs : List Clause) :
    listPieces keyword cs = spelled keyword (written cs) := by
  -- whether anything is written is decided by one recursion, what is written by another
  have hnil : areVacant cs = true ↔ written cs = [] :=
    (areVacant_iff_prune cs).trans (written_eq_nil_iff cs).symm
  unfold listPieces
  by_cases h : areVacant cs = true
  · rw [if_pos h, hnil.1 h]
    rfl
  · obtain ⟨w, ws, hw⟩ := List.exists_cons_of_ne_nil fun hw => h (hnil.2 hw)
    rw [if_neg h, ← pieces_written, hw]
    rfl

namespace Predicate

/-! ### Rows that pass words -/

/-- A word whose test is written as a chain. -/
def Word.under {α : Type} (chain : Test → Chain α) : Word Test → List (Word α)
  | atom t => (chain t).words
  | connector c => [.connector c]
  | opening => [.opening]
  | closing => [.closing]

theorem under_words_alone {α : Type} (chain : Test → Chain α) (t : Token) :
    (words alone t).flatMap (Word.under chain) = words chain t := by
  cases t with
  | leaf t => exact List.append_nil _
  | _ => rfl

/-- Whether a row passes words: there are none, or they are read as something true. -/
def Verdict.passesWords (v : Verdict) (ws : List (Word Test)) : Prop :=
  ws = [] ∨ ∃ i, read (ws.flatMap (Word.under v.chain)) = some i ∧ i.value = true

instance (v : Verdict) (ws : List (Word Test)) : Decidable (v.passesWords ws) :=
  decidable_of_iff (ws.isEmpty ∨ (read (ws.flatMap (Word.under v.chain))).any Item.value) <| by
    rw [Verdict.passesWords, List.isEmpty_iff, Option.any_eq_true]

/-- **A row passes a predicate when it passes the words.** -/
theorem Verdict.passes_iff_passesWords (v : Verdict) (cs : List Clause) :
    v.passes cs ↔ v.passesWords (written cs) := by
  have hunder : (written cs).flatMap (Word.under v.chain) =
      (Clause.listTokens true cs).flatMap (words v.chain) := by
    rw [written, List.flatMap_assoc]
    exact List.flatMap_congr fun t _ => under_words_alone v.chain t
  rw [passes, passesWords, hunder, Clause.areVacant_iff_prune, written_eq_nil_iff]

end Predicate

/-! ### Statements -/

/-- The statement of this form that has these words as the tests of rows. -/
def Form.spell (f : Form) (d : Dialect) (table : String) (q : Query) (ws : List (Word Test)) :
    Statement :=
  let ps := f.frame d table q (spelled " WHERE " ws) (spelled " HAVING " (written q.havings))
  ⟨Piece.render d.placeholder 0 ps, Piece.bindings ps⟩

/-- The words by which a query tests rows: every statement of the query spells them, and the rows
that pass the query are those that pass them. -/
structure Query.TestedBy (q : Query) (ws : List (Word Test)) : Prop where
  layout : ∀ (f : Form) (d : Dialect) (table : String), f.layout d table q =
    f.frame d table q (spelled " WHERE " ws) (spelled " HAVING " (written q.havings))
  statement : ∀ (f : Form) (d : Dialect) (s : Statement), f.statement d q = .ok s →
    ∃ table, q.table = some table ∧ s = f.spell d table q ws
  passed : ∀ v : Verdict, v.passes q.wheres ↔ v.passesWords ws

/-- **A query tests rows by the words of its predicate.** -/
theorem Query.testedBy (q : Query) : q.TestedBy (written q.wheres) := by
  have hlayout : ∀ (f : Form) (d : Dialect) (table : String), f.layout d table q =
      f.frame d table q (spelled " WHERE " (written q.wheres))
        (spelled " HAVING " (written q.havings)) := by
    intro f d table
    rw [f.layout_frame, Clause.listPieces_eq, Clause.listPieces_eq]
  refine ⟨hlayout, fun f d s hs => ?_, fun v => v.passes_iff_passesWords q.wheres⟩
  obtain ⟨-, table, htable, rfl⟩ := Form.of_statement_eq_ok hs
  exact ⟨table, htable, by rw [Form.spell, hlayout]⟩

end ActiveRow
