import ActiveRow.Proofs.Compilation.Operators
import ActiveRow.Query.Call

/-!
# Operators that calls give

A call that compares checks its operator, and a query remembers the first one that is not accepted.
From then on it is compiled to nothing but a fault that names it. A join that is added as it is
brings operators that nobody checks. Where an operator is written, its text is one of those that are
accepted, unless it came with such a join.

* `Call.firstInvalid_runCalls`: which operator a query remembers after calls.
* `Call.sourced_runCalls`: where the operators of a query come from.
* `statement_operators`: calls that compare never bring another operator into a statement.
-/

namespace ActiveRow

/-! ### The operators of calls -/

namespace Call

mutual

/-- The operators that a call checks. A call that is not made checks none. -/
def checked : Call → List String
  | filter _ t => t.operator?.toList
  | having _ t => t.operator?.toList
  | join _ _ _ operator _ => [operator]
  | joinWhere _ _ operator _ => [operator]
  | nest _ calls => listChecked calls
  | when condition calls => if condition then listChecked calls else []
  | _ => []

/-- The operators that calls check, in the order of the calls. -/
def listChecked : List Call → List String
  | [] => []
  | c :: rest => c.checked ++ listChecked rest

end

mutual

/-- The joins that a call adds as they are. A group keeps tests only. -/
def given : Call → List Join
  | joinClause j => [j]
  | when condition calls => if condition then listGiven calls else []
  | _ => []

/-- The joins that calls add as they are, in the order of the calls. -/
def listGiven : List Call → List Join
  | [] => []
  | c :: rest => c.given ++ listGiven rest

end

/-- The first operator that calls check and that is not accepted. -/
def firstRefused? (calls : List Call) : Option String :=
  (listChecked calls).find? (!Operator.isValid ·)

end Call

/-! ### The operator that a query remembers -/

namespace Query

theorem firstInvalid_check_eq (q : Query) (operator : String) : (q.check operator).firstInvalid =
    q.firstInvalid.or ([operator].find? (!Operator.isValid ·)) := by
  unfold check
  cases h : Operator.isValid operator <;> simp [h]

theorem firstInvalid_checkTest (q : Query) (t : Test) : (q.checkTest t).firstInvalid =
    q.firstInvalid.or (t.operator?.toList.find? (!Operator.isValid ·)) := by
  unfold checkTest
  cases t.operator? with
  | none => simp
  | some operator => exact q.firstInvalid_check_eq operator

end Query

namespace Call

mutual

theorem firstInvalid_run (q : Query) : ∀ c : Call, (c.run q).firstInvalid =
    q.firstInvalid.or (c.checked.find? (!Operator.isValid ·))
  | filter _ t => by simpa only [run, checked, Query.filter] using q.firstInvalid_checkTest t
  | having _ t => by simpa only [run, checked, Query.having] using q.firstInvalid_checkTest t
  | join _ _ _ operator _ => by
    simpa only [run, checked, Query.join, Query.addJoin] using q.firstInvalid_check_eq operator
  | joinWhere _ _ operator _ => by
    simpa only [run, checked, Query.joinWhere, Query.addJoin] using q.firstInvalid_check_eq operator
  | nest _ calls => by
    simpa only [run, checked, Query.nest, firstRefused?, Option.none_or] using
      congrArg q.firstInvalid.or (firstInvalid_runCalls {} calls)
  | when true calls => firstInvalid_runCalls q calls
  | when false _ | from_ _ | select _ | addSelect _ | selectRaw _ | distinct | crossJoin _
  | joinClause _ | orderBy _ _ | orderByRaw _ | reorder | groupBy _ | take _ | skip _
  | forPage _ _ => Option.or_none.symm

/-- **The operator that a query remembers** after calls: the one it remembered before, or else the
first that the calls check and that is not accepted. -/
theorem firstInvalid_runCalls (q : Query) : ∀ calls : List Call,
    (runCalls q calls).firstInvalid = q.firstInvalid.or (firstRefused? calls)
  | [] => by simp [runCalls, firstRefused?, listChecked]
  | c :: rest => by
    rw [runCalls, firstInvalid_runCalls (c.run q) rest, firstInvalid_run q c, Option.or_assoc,
      firstRefused?, firstRefused?, listChecked, List.find?_append]

end

end Call

/-! ### Where the operators of a query come from -/

namespace Clause

theorem listTests_append (cs cs' : List Clause) :
    listTests (cs ++ cs') = listTests cs ++ listTests cs' := by
  induction cs with
  | nil => rfl
  | cons c cs ih => rw [List.cons_append, listTests, listTests, ih, List.append_assoc]

theorem listOperators_append_subset {cs cs' : List Clause} {ops ops' : List String}
    (h : listOperators cs ⊆ ops) (h' : listOperators cs' ⊆ ops') :
    listOperators (cs ++ cs') ⊆ ops ++ ops' := by
  rw [listOperators, listTests_append, List.flatMap_append]
  exact List.append_subset.2 ⟨List.subset_append_of_subset_left ops' h,
    List.subset_append_of_subset_right ops h'⟩

theorem listOperators_group (link : Connector) (cs : List Clause) :
    listOperators [group link cs] = listOperators cs := by
  simp [listOperators, listTests, tests]

end Clause

theorem Test.operators_subset (t : Test) : t.operators ⊆ t.operator?.toList := by
  cases t with
  | compare column operator operand =>
    rw [operators]
    split
    · exact List.nil_subset _
    · exact List.Subset.refl _
  | _ => exact List.Subset.refl _

theorem Clause.listOperators_test_subset (link : Connector) (t : Test) :
    listOperators [test link t] ⊆ t.operator?.toList := by
  simpa [listOperators, listTests, tests] using t.operators_subset

theorem Join.operators_subset (j : Join) :
    j.operators ⊆ j.conditions.map JoinCondition.operator := by
  rw [operators]
  split
  · exact List.nil_subset _
  · exact List.Subset.refl _

/-- The operators of the tests are among `ops`, and each join is one of `given` or has its operators
among `ops` too. Each of `given` is there. -/
structure Query.Sourced (ops : List String) (given : List Join) (q : Query) : Prop where
  wheres : Clause.listOperators q.wheres ⊆ ops
  havings : Clause.listOperators q.havings ⊆ ops
  joins : ∀ j ∈ q.joins, j ∈ given ∨ j.operators ⊆ ops
  given : given ⊆ q.joins

namespace Query.Sourced

variable {ops ops' : List String} {given : List Join} {q q' : Query}

theorem empty : Sourced [] [] {} :=
  ⟨List.Subset.refl _, List.Subset.refl _, List.forall_mem_nil _, List.nil_subset _⟩

/-- Only joins, row tests and group tests matter. -/
theorem of_eq (h : Sourced ops given q) (hjoins : q'.joins = q.joins)
    (hwheres : q'.wheres = q.wheres) (hhavings : q'.havings = q.havings) :
    Sourced ops given q' :=
  ⟨hwheres ▸ h.wheres, hhavings ▸ h.havings, hjoins ▸ h.joins, hjoins ▸ h.given⟩

theorem widen (h : Sourced ops given q) (ops' : List String) :
    Sourced (ops ++ ops') (given ++ []) q where
  wheres := List.subset_append_of_subset_left ops' h.wheres
  havings := List.subset_append_of_subset_left ops' h.havings
  joins j hj := (h.joins j hj).imp (List.mem_append_left [])
    (List.subset_append_of_subset_left ops')
  given := List.append_subset.2 ⟨h.given, List.nil_subset _⟩

theorem addWheres (h : Sourced ops given q) {cs : List Clause}
    (hcs : Clause.listOperators cs ⊆ ops') :
    Sourced (ops ++ ops') (given ++ []) { q with wheres := q.wheres ++ cs } :=
  { h.widen ops' with wheres := Clause.listOperators_append_subset h.wheres hcs }

theorem addHavings (h : Sourced ops given q) {cs : List Clause}
    (hcs : Clause.listOperators cs ⊆ ops') :
    Sourced (ops ++ ops') (given ++ []) { q with havings := q.havings ++ cs } :=
  { h.widen ops' with havings := Clause.listOperators_append_subset h.havings hcs }

theorem addJoin (h : Sourced ops given q) {j : Join} (hj : j.operators ⊆ ops') :
    Sourced (ops ++ ops') (given ++ []) (q.addJoin j) :=
  { h.widen ops' with
    joins := List.forall_mem_append.2 ⟨(h.widen ops').joins, List.forall_mem_singleton.2
      (.inr (List.subset_append_of_subset_right ops hj))⟩
    given := List.subset_append_of_subset_left [j] (h.widen ops').given }

theorem addGiven (h : Sourced ops given q) (j : Join) :
    Sourced (ops ++ []) (given ++ [j]) (q.addJoin j) :=
  { h.widen [] with
    joins := List.forall_mem_append.2
      ⟨fun j' hj' => (h.joins j' hj').imp (List.mem_append_left [j])
          (List.subset_append_of_subset_left []),
        List.forall_mem_singleton.2 (.inl (List.mem_concat_self ..))⟩
    given := List.append_subset.2 ⟨List.subset_append_of_subset_left [j] h.given,
      List.subset_append_of_subset_right q.joins (List.Subset.refl _)⟩ }

theorem check (h : Sourced ops given q) (operator : String) :
    Sourced ops given (q.check operator) := by
  unfold Query.check
  split
  · exact h
  · exact h.of_eq rfl rfl rfl

theorem checkTest (h : Sourced ops given q) (t : Test) : Sourced ops given (q.checkTest t) := by
  unfold Query.checkTest
  split
  · exact h.check _
  · exact h

end Query.Sourced

namespace Call

open Query (Sourced)

mutual

theorem sourced_run {ops : List String} {given : List Join} {q : Query}
    (h : Sourced ops given q) : ∀ c : Call,
    Sourced (ops ++ c.checked) (given ++ c.given) (c.run q)
  | filter link t => (h.checkTest t).addWheres (Clause.listOperators_test_subset link t)
  | having link t => (h.checkTest t).addHavings (Clause.listOperators_test_subset link t)
  | join kind table first operator second => (h.check operator).addJoin (Join.operators_subset _)
  | joinWhere table column operator v => (h.check operator).addJoin (Join.operators_subset _)
  | nest link calls => by
    -- of what the calls gather, a group keeps the row tests only
    have hinner := (sourced_runCalls Sourced.empty calls).wheres
    rw [List.nil_append, ← Clause.listOperators_group link] at hinner
    exact (h.addWheres hinner).of_eq rfl rfl rfl
  | crossJoin table => h.addJoin (List.nil_subset _)
  | joinClause j => h.addGiven j
  | when true calls => sourced_runCalls h calls
  | when false _ | from_ _ | select _ | addSelect _ | selectRaw _ | distinct | orderBy _ _
  | orderByRaw _ | reorder | groupBy _ | take _ | skip _ | forPage _ _ =>
    (h.widen []).of_eq rfl rfl rfl

/-- **Where the operators of a query come from**: from what its calls check, and from the joins that
they add as they are. -/
theorem sourced_runCalls {ops : List String} {given : List Join} {q : Query}
    (h : Sourced ops given q) : ∀ calls : List Call,
    Sourced (ops ++ listChecked calls) (given ++ listGiven calls) (runCalls q calls)
  | [] => by simpa [listChecked, listGiven, runCalls] using h
  | c :: rest => by
    have hc := sourced_runCalls (sourced_run h c) rest
    rwa [List.append_assoc, List.append_assoc] at hc

end

end Call

/-! ### Statements after calls -/

namespace Form

theorem statement_of_firstInvalid {q : Query} {op : String} (h : q.firstInvalid = some op)
    (d : Dialect) (f : Form) : f.statement d q = .error (.validation (.operator op)) := by
  rw [statement_eq, check, Query.validate, h]
  rfl

/-- When all that calls check is accepted, so are the operators of a statement, but for those of
joins that were added as they are. -/
theorem accepted_operators_iff {ops : List String} {given : List Join} {q : Query}
    (h : q.Sourced ops given) (hops : ∀ op ∈ ops, Operator.isValid op = true) (f : Form) :
    (∀ op ∈ f.operators q, Operator.Accepted (Operator.written op)) ↔
      (f.Joins → ∀ j ∈ given, ∀ op ∈ j.operators, Operator.Accepted (Operator.written op)) := by
  have haccepted : ∀ op ∈ ops, Operator.Accepted (Operator.written op) := fun op hop =>
    Operator.accepted_written (hops op hop)
  have hwheres : ∀ op ∈ Clause.listOperators q.wheres, Operator.Accepted (Operator.written op) :=
    fun op hop => haccepted op (h.wheres hop)
  have hhavings : ∀ op ∈ Clause.listOperators q.havings,
      Operator.Accepted (Operator.written op) := fun op hop => haccepted op (h.havings hop)
  have hjoined : (∀ op ∈ q.operators, Operator.Accepted (Operator.written op)) ↔
      ∀ j ∈ given, ∀ op ∈ j.operators, Operator.Accepted (Operator.written op) := by
    constructor
    · intro hq j hj op hop
      exact hq op (List.mem_append_left _ (List.mem_append_left _
        (List.mem_flatMap.2 ⟨j, h.given hj, hop⟩)))
    · intro hgiven op hop
      rw [Query.operators, List.mem_append, List.mem_append, List.mem_flatMap] at hop
      obtain (⟨j, hj, hop⟩ | hop) | hop := hop
      · obtain hj | hj := h.joins j hj
        · exact hgiven j hj op hop
        · exact haccepted op (hj hop)
      · exact hwheres op hop
      · exact hhavings op hop
  cases f with
  | select | probe | aggregate _ _ => simpa only [operators, Joins, true_imp_iff] using hjoined
  | update _ | delete => simpa only [operators, Joins, false_imp_iff, iff_true] using hwheres
  | insert _ _ | truncate => simp [operators, Joins]

end Form

/-- **Calls that compare bring accepted operators only.** Once calls gave one that is not accepted,
no statement is made of the query, whatever calls follow, and the fault names the first such
operator. A statement that is made stands with the operators of its query, beside which it has only
places, fixed texts and the other texts that it was given. All of them are accepted exactly when
those of the joins are that were added as they are and that the statement has: these alone nobody
checks. -/
theorem statement_operators (calls : List Call) (d : Dialect) (f : Form) :
    (∀ op, Call.firstRefused? calls = some op → ∀ more : List Call,
      f.statement d (runCalls {} (calls ++ more)) = .error (.validation (.operator op))) ∧
    ∀ s, f.statement d (runCalls {} calls) = .ok s →
      ∃ table, (runCalls {} calls).table = some table ∧
        s = ⟨Piece.render d.placeholder 0 (f.layout d table (runCalls {} calls)),
          Piece.bindings (f.layout d table (runCalls {} calls))⟩ ∧
        Piece.Marks (f.wording d table (runCalls {} calls)) (f.layout d table (runCalls {} calls))
          (f.operators (runCalls {} calls)) ∧
        ((∀ op ∈ f.operators (runCalls {} calls), Operator.Accepted (Operator.written op)) ↔
          (f.Joins → ∀ j ∈ Call.listGiven calls, ∀ op ∈ j.operators,
            Operator.Accepted (Operator.written op))) := by
  constructor
  · intro op hop more
    refine Form.statement_of_firstInvalid ?_ d f
    rw [runCalls_append, Call.firstInvalid_runCalls, Call.firstInvalid_runCalls, hop]
    rfl
  · intro s hs
    obtain ⟨hvalid, table, htable, rfl⟩ := Form.of_statement_eq_ok hs
    refine ⟨table, htable, rfl, f.marks_layout d table _, ?_⟩
    refine f.accepted_operators_iff (Call.sourced_runCalls Query.Sourced.empty calls) ?_
    -- nothing is remembered, so all that was checked is accepted
    rw [Call.firstInvalid_runCalls, Option.none_or, Call.firstRefused?,
      List.find?_eq_none] at hvalid
    simpa using hvalid

/-- A join that is added as it is and a comparison stand in a statement; a comparison in a group
gives an operator that is not accepted, and from then on there is no statement. -/
theorem statement_operators_group :
    let calls : List Call :=
      [.from_ "t", .joinClause ⟨.left, "u", [.columns "a" "=" "b" .and]⟩,
        .filter .and (.compare "c" " Like " (.value (.int 1)))]
    let group : Call := .nest .or [.filter .and (.compare "d" "==" (.value (.int 2)))]
    Form.select.statement .generic (runCalls {} calls) =
        .ok ⟨"SELECT * FROM t LEFT JOIN u ON a = b WHERE c LIKE ?", [.int 1]⟩ ∧
      (∀ op ∈ ["=", " Like "], Operator.Accepted (Operator.written op)) ∧
      ∀ more : List Call, Form.select.statement .generic (runCalls {} (calls ++ [group] ++ more)) =
        .error (.validation (.operator "==")) := by
  intro calls group
  have hs : Form.select.statement .generic (runCalls {} calls) =
      .ok ⟨"SELECT * FROM t LEFT JOIN u ON a = b WHERE c LIKE ?", [.int 1]⟩ := rfl
  obtain ⟨_, _, _, _, hiff⟩ := (statement_operators calls .generic .select).2 _ hs
  refine ⟨hs, hiff.2 ?_, (statement_operators (calls ++ [group]) .generic .select).1 "==" rfl⟩
  intro _ j hj op hop
  obtain rfl := List.mem_singleton.1 hj
  obtain rfl := List.mem_singleton.1 hop
  exact Operator.accepted_written rfl

/-- A join that is added as it is brings any text into a statement. -/
theorem joinClause_unchecked :
    ¬ ∀ (calls : List Call) (d : Dialect) (f : Form) (s : Statement),
      f.statement d (runCalls {} calls) = .ok s →
        ∀ op ∈ f.operators (runCalls {} calls), Operator.Accepted (Operator.written op) := by
  intro h
  have hs : Form.select.statement .generic
      (runCalls {} [.from_ "t", .joinClause ⟨.inner, "u", [.columns "a" "=; DROP" "b" .and]⟩]) =
        .ok ⟨"SELECT * FROM t INNER JOIN u ON a =; DROP b", []⟩ := rfl
  have haccepted := h _ _ _ _ hs "=; DROP" List.mem_cons_self
  revert haccepted
  unfold Operator.Accepted
  decide +kernel

end ActiveRow
