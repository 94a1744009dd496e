import Mathlib.Data.List.Sort
import ActiveRow.Proofs.Compilation.CheckedCalls
import ActiveRow.Selection

/-!
# The order of calls

Each call writes some slots of a query, one for each clause of a statement, and neither reads nor
writes another. So what a slot holds after calls is made by the calls that write it, in their order,
and calls that share no slot may change places.

* `Call.sameAt_run`, `Call.sameAt_run_self`: what a call does to a slot that it writes, and to one
  that it does not write.
* `Call.sameAt_runCalls_writing`: the calls that write a slot make what it holds.
* `Call.Rearranged.filter_eq`: rearranging keeps the calls of each slot in their order.
* `statement_rearranged`: rearranged calls make the same statements.
-/

namespace ActiveRow

/-- What calls write: the clauses of a query. -/
inductive Slot where
  | table
  | columns
  | distinct
  | wheres
  | joins
  | groups
  | havings
  | orders
  | limit
  | offset
  deriving DecidableEq

/-- Two queries hold the same in a slot. -/
def Query.SameAt (q q' : Query) : Slot → Prop
  | .table => q.table = q'.table
  | .columns => q.columns = q'.columns
  | .distinct => q.distinct = q'.distinct
  | .wheres => q.wheres = q'.wheres
  | .joins => q.joins = q'.joins
  | .groups => q.groups = q'.groups
  | .havings => q.havings = q'.havings
  | .orders => q.orders = q'.orders
  | .limit => q.limit = q'.limit
  | .offset => q.offset = q'.offset

namespace Query.SameAt

variable {q q' q'' : Query} {s : Slot}

theorem refl (q : Query) (s : Slot) : q.SameAt q s := by
  cases s <;> rfl

theorem symm (h : q.SameAt q' s) : q'.SameAt q s := by
  cases s <;> exact Eq.symm h

theorem trans (h : q.SameAt q' s) (h' : q'.SameAt q'' s) : q.SameAt q'' s := by
  cases s <;> exact Eq.trans h h'

/-- Remembering an operator writes no slot. -/
theorem check (q : Query) (operator : String) (s : Slot) : (q.check operator).SameAt q s := by
  unfold Query.check
  split
  · exact refl q s
  · cases s <;> rfl

theorem checkTest (q : Query) (t : Test) (s : Slot) : (q.checkTest t).SameAt q s := by
  unfold Query.checkTest
  split
  · exact check q _ s
  · exact refl q s

/-- Neither query's memory of operators matters for what a slot holds. -/
theorem check_check (h : q.SameAt q' s) (operator : String) :
    (q.check operator).SameAt (q'.check operator) s :=
  ((check q operator s).trans h).trans (check q' operator s).symm

theorem checkTest_checkTest (h : q.SameAt q' s) (t : Test) :
    (q.checkTest t).SameAt (q'.checkTest t) s :=
  ((checkTest q t s).trans h).trans (checkTest q' t s).symm

theorem addJoin (h : q.SameAt q' s) (j : Join) : (q.addJoin j).SameAt (q'.addJoin j) s := by
  cases s with
  | joins => exact congrArg (· ++ [j]) h
  | _ => exact h

theorem addJoin_self (q : Query) (j : Join) (h : s ∉ [Slot.joins]) : (q.addJoin j).SameAt q s := by
  cases s with
  | joins => exact absurd List.mem_cons_self h
  | _ => rfl

end Query.SameAt

/-- A query is what its slots hold and the operator that it remembers. -/
theorem Query.eq_of_sameAt {q q' : Query} (h : ∀ s, q.SameAt q' s)
    (hinvalid : q.firstInvalid = q'.firstInvalid) : q = q' := by
  cases q
  cases q'
  obtain rfl := h .table
  obtain rfl := h .columns
  obtain rfl := h .distinct
  obtain rfl := h .wheres
  obtain rfl := h .joins
  obtain rfl := h .groups
  obtain rfl := h .havings
  obtain rfl := h .orders
  obtain rfl := h .limit
  obtain rfl := h .offset
  obtain rfl := hinvalid
  rfl

namespace Call

mutual

/-- The slots that a call writes. A call on a condition writes what its calls write. -/
def slots : Call → List Slot
  | from_ _ => [.table]
  | select _ | addSelect _ | selectRaw _ => [.columns]
  | distinct => [.distinct]
  | filter _ _ | nest _ _ => [.wheres]
  | join _ _ _ _ _ | joinWhere _ _ _ _ | crossJoin _ | joinClause _ => [.joins]
  | groupBy _ => [.groups]
  | having _ _ => [.havings]
  | orderBy _ _ | orderByRaw _ | reorder => [.orders]
  | take _ => [.limit]
  | skip _ => [.offset]
  | forPage _ _ => [.limit, .offset]
  | when condition calls => if condition then listSlots calls else []

def listSlots : List Call → List Slot
  | [] => []
  | c :: rest => c.slots ++ listSlots rest

end

def writes (s : Slot) (c : Call) : Bool := c.slots.contains s

/-! ### One call and one slot -/

mutual

/-- **What a call does to a slot** depends on what the slot holds and on nothing else. -/
theorem sameAt_run {q q' : Query} {s : Slot} (h : q.SameAt q' s) : ∀ c : Call,
    (c.run q).SameAt (c.run q') s
  | from_ _ | select _ | distinct | reorder | take _ | skip _ | forPage _ _ => by
    rw [run, run]
    cases s <;> first | exact h | rfl
  | addSelect _ | selectRaw _ | nest _ _ | orderBy _ _ | orderByRaw _ | groupBy _ => by
    rw [run, run]
    cases s <;> first | exact h | exact congrArg (· ++ _) h
  | filter _ t | having _ t => by
    have ht := h.checkTest_checkTest t
    rw [run, run]
    cases s <;> first | exact ht | exact congrArg (· ++ _) ht
  | join _ _ _ operator _ | joinWhere _ _ operator _ => (h.check_check operator).addJoin _
  | crossJoin _ | joinClause _ => h.addJoin _
  | when true calls => sameAt_runCalls h calls
  | when false _ => h

theorem sameAt_runCalls {q q' : Query} {s : Slot} (h : q.SameAt q' s) : ∀ calls : List Call,
    (runCalls q calls).SameAt (runCalls q' calls) s
  | [] => h
  | c :: rest => sameAt_runCalls (sameAt_run h c) rest

end

mutual

/-- **A slot that a call does not write** stays as it is. -/
theorem sameAt_run_self (q : Query) {s : Slot} : ∀ {c : Call}, s ∉ c.slots → (c.run q).SameAt q s
  | from_ _, h | select _, h | addSelect _, h | selectRaw _, h | distinct, h | nest _ _, h
  | orderBy _ _, h | orderByRaw _, h | reorder, h | groupBy _, h | take _, h | skip _, h
  | forPage _ _, h => by
    rw [slots] at h
    rw [run]
    cases s <;> first | rfl | simp at h
  | filter _ t, h | having _ t, h => by
    have ht := Query.SameAt.checkTest q t s
    rw [slots] at h
    rw [run]
    cases s <;> first | exact ht | simp at h
  | join _ _ _ operator _, h | joinWhere _ _ operator _, h =>
    (Query.SameAt.addJoin_self _ _ h).trans (.check q operator s)
  | crossJoin _, h | joinClause _, h => .addJoin_self q _ h
  | when true calls, h => sameAt_runCalls_self q h
  | when false _, _ => .refl q s

theorem sameAt_runCalls_self (q : Query) {s : Slot} : ∀ {calls : List Call},
    s ∉ listSlots calls → (runCalls q calls).SameAt q s
  | [], _ => .refl q s
  | c :: rest, h => by
    rw [listSlots, List.mem_append, not_or] at h
    exact (sameAt_runCalls_self (c.run q) h.2).trans (sameAt_run_self q h.1)

end

/-- **What a slot holds after calls** is made by the calls that write it, in their order. -/
theorem sameAt_runCalls_writing (s : Slot) (calls : List Call) : ∀ q : Query,
    (runCalls q calls).SameAt (runCalls q (calls.filter (writes s))) s := by
  induction calls with
  | nil => exact fun q => .refl q s
  | cons c rest ih =>
    intro q
    by_cases hc : c.writes s = true
    · rw [List.filter_cons_of_pos hc]
      exact ih (c.run q)
    · rw [List.filter_cons_of_neg hc]
      have hslot : s ∉ c.slots := by simpa [writes] using hc
      exact (sameAt_runCalls (sameAt_run_self q hslot) rest).trans (ih q)

/-! ### Rearranged calls -/

/-- Two calls write a slot in common. -/
def Shares (c c' : Call) : Prop := ∃ s, c.writes s = true ∧ c'.writes s = true

instance (c c' : Call) : Decidable (Shares c c') :=
  decidable_of_iff (c.slots.any fun s => c'.writes s) (by simp [Shares, writes])

/-- The same calls in another order, in which any two that share a slot stand as they stood: `place`
is where each call has gone. -/
def Rearranged (calls calls' : List Call) : Prop :=
  ∃ place : Fin calls.length ≃ Fin calls'.length,
    (∀ i, calls'[place i] = calls[i]) ∧ ∀ i j, i < j → Shares calls[i] calls[j] → place i < place j

/-- The places of the calls that write a slot, in ascending order. -/
def placesOf (s : Slot) (calls : List Call) : List (Fin calls.length) :=
  (List.finRange calls.length).filter fun i => calls[i].writes s

theorem pairwise_placesOf (s : Slot) (calls : List Call) :
    (placesOf s calls).Pairwise (· < ·) :=
  ((List.sortedLT_finRange calls.length).pairwise).filter _

theorem filter_writes_eq (s : Slot) (calls : List Call) :
    calls.filter (writes s) = (placesOf s calls).map fun i => calls[i] := by
  conv_lhs => rw [← List.map_getElem_finRange calls]
  rw [List.filter_map, placesOf]
  rfl

/-- **The calls of a slot keep their order** when calls are rearranged. -/
theorem Rearranged.filter_eq {calls calls' : List Call} (h : Rearranged calls calls') (s : Slot) :
    calls.filter (writes s) = calls'.filter (writes s) := by
  obtain ⟨place, hcall, horder⟩ := h
  have hplaces : (placesOf s calls).map place = placesOf s calls' := by
    -- both list the places of the writers in the second order, and both in ascending order
    refine List.Pairwise.eq_of_mem_iff (r := (· < ·)) ?_ (pairwise_placesOf s calls') fun j => ?_
    · refine List.pairwise_map.2 ((pairwise_placesOf s calls).imp_of_mem ?_)
      intro i j hi hj hij
      exact horder i j hij ⟨s, (List.mem_filter.1 hi).2, (List.mem_filter.1 hj).2⟩
    · simp only [placesOf, List.mem_map, List.mem_filter, List.mem_finRange, true_and]
      constructor
      · rintro ⟨i, hi, rfl⟩
        rw [hcall]
        exact hi
      · intro hj
        obtain ⟨i, rfl⟩ := place.surjective j
        exact ⟨i, hcall i ▸ hj, rfl⟩
  rw [filter_writes_eq, filter_writes_eq, ← hplaces, List.map_map]
  exact List.map_congr_left fun i _ => (hcall i).symm

theorem Rearranged.subset {calls calls' : List Call} (h : Rearranged calls calls') :
    calls' ⊆ calls := by
  obtain ⟨place, hcall, -⟩ := h
  intro c hc
  obtain ⟨j, hj, rfl⟩ := List.mem_iff_getElem.1 hc
  obtain ⟨i, hi⟩ := place.surjective ⟨j, hj⟩
  have hget : calls'[j] = calls[i] := by simpa [hi] using hcall i
  rw [hget]
  exact List.getElem_mem i.2

theorem firstRefused?_eq_none {calls : List Call}
    (h : ∀ c ∈ calls, ∀ op ∈ c.checked, Operator.isValid op = true) :
    firstRefused? calls = none := by
  have hlist : listChecked calls = calls.flatMap checked := by
    induction calls with
    | nil => rfl
    | cons c rest ih =>
      rw [listChecked, List.flatMap_cons, ih fun c hc => h c (List.mem_cons_of_mem _ hc)]
  rw [firstRefused?, hlist, List.find?_eq_none]
  intro op hop
  obtain ⟨c, hc, hop⟩ := List.mem_flatMap.1 hop
  simp [h c hc op hop]

/-- **Rearranged calls build the same query.** -/
theorem Rearranged.runCalls_eq {calls calls' : List Call} (h : Rearranged calls calls')
    (hops : ∀ c ∈ calls, ∀ op ∈ c.checked, Operator.isValid op = true) (q : Query) :
    runCalls q calls = runCalls q calls' := by
  refine Query.eq_of_sameAt (fun s => ?_) ?_
  · refine (sameAt_runCalls_writing s calls q).trans ?_
    rw [h.filter_eq s]
    exact (sameAt_runCalls_writing s calls' q).symm
  · rw [firstInvalid_runCalls, firstInvalid_runCalls, firstRefused?_eq_none hops,
      firstRefused?_eq_none fun c hc => hops c (h.subset hc)]

end Call

/-- **Calls of different slots may change places.** When calls with accepted operators are
rearranged so that any two that share a slot keep their order, every statement of the query they
build is the same, in every form and every dialect, with its values or its fault; and so is every
statement of a page of it, and of a selection that is refined by the calls, with its scope. -/
theorem statement_rearranged {calls calls' : List Call} (h : Call.Rearranged calls calls')
    (hops : ∀ c ∈ calls, ∀ op ∈ c.checked, Operator.isValid op = true) (d : Dialect) :
    (∀ (q : Query) (f : Form),
      f.statement d (runCalls q calls) = f.statement d (runCalls q calls')) ∧
    (∀ (q : Query) (page perPage : UInt64),
      ((runCalls q calls).forPage page perPage).selectStatement d =
        ((runCalls q calls').forPage page perPage).selectStatement d) ∧
    ∀ {σ : Type} (s : Selection σ),
      let built : List Call → Selection σ := fun calls => s.refine (runCalls · calls)
      (∀ f : Form, f.statement d (built calls).toQuery = f.statement d (built calls').toQuery) ∧
      ∀ page perPage : UInt64,
        ((built calls).refine (·.forPage page perPage)).toQuery.selectStatement d =
          ((built calls').refine (·.forPage page perPage)).toQuery.selectStatement d := by
  have hquery := h.runCalls_eq hops
  refine ⟨fun q f => ?_, fun q page perPage => ?_, fun s => ?_⟩
  · rw [hquery q]
  · rw [hquery q]
  · have hbuilt : s.refine (runCalls · calls) = s.refine (runCalls · calls') := by
      rw [Selection.refine, hquery s.query, Selection.refine]
    simp only [hbuilt, implies_true, and_self]

/-- A page taken first, an order dropped and given anew, and a group of tests, against the same
calls by their slots. -/
theorem statement_rearranged_page :
    let calls : List Call :=
      [.forPage 3 10, .orderBy "a" .asc, .nest .or [.filter .and (.compare "b" "=" (.value .null))],
        .reorder, .orderBy "c" .desc, .take 5]
    let calls' : List Call :=
      [.nest .or [.filter .and (.compare "b" "=" (.value .null))], .orderBy "a" .asc, .reorder,
        .forPage 3 10, .take 5, .orderBy "c" .desc]
    Call.Rearranged calls calls' ∧
      (∀ c ∈ calls, ∀ op ∈ c.checked, Operator.isValid op = true) ∧
        Form.select.statement .mysql (runCalls (Query.on "t") calls) =
          Form.select.statement .mysql (runCalls (Query.on "t") calls') ∧
        Form.select.statement .mysql (runCalls (Query.on "t") calls) =
          .ok ⟨"SELECT * FROM t WHERE (b IS NULL) ORDER BY c DESC LIMIT 5 OFFSET 20", []⟩ := by
  intro calls calls'
  let there : Fin 6 → Fin 6 := ![3, 1, 0, 2, 5, 4]
  let back : Fin 6 → Fin 6 := ![2, 1, 3, 0, 5, 4]
  have hcall : ∀ i : Fin 6, calls'[there i] = calls[i] := fun i => by fin_cases i <;> rfl
  have h : Call.Rearranged calls calls' :=
    ⟨⟨there, back, by decide, by decide⟩, hcall, by decide⟩
  have hops : ∀ c ∈ calls, ∀ op ∈ c.checked, Operator.isValid op = true := by decide
  exact ⟨h, hops, (statement_rearranged h hops .mysql).1 _ .select, rfl⟩

end ActiveRow
