import ActiveRow.Proofs.Predicate.Spelling
import ActiveRow.Proofs.Sending
import ActiveRow.Selection.Chunk
import ActiveRow.Selection.Write

/-!
# The scope of a selection

A selection on a model that marks deleted rows adds a test for the mark to its predicate. Whatever
the predicate is, a row passes what is written exactly when it passes the predicate and the test.

* `passes_scopedTo`: so it is for the query that runs.
* `Operation.Issues`: the statements that an operation sends of its own.
* `sends_scoped`: each of them spells tests that the rows pass which pass the predicate of the
  selection and the test for the mark.
-/

namespace ActiveRow.Selection

open Predicate Script

/-! ### The query that runs -/

section

variable {σ : Type} (s : Selection σ)

/-- What a scope asks of the mark of a row. -/
def keeps (v : Verdict) : Trashed → Prop
  | .exclude => v.holds (.isNull (s.qualify s.model.deletedAt) false)
  | .include => True
  | .only => v.holds (.isNull (s.qualify s.model.deletedAt) true)

theorem wheres_scopedTo (t : Trashed) : (s.scopedTo t).wheres =
    if !s.model.softDeletes || t = .include then s.query.wheres
    else s.query.isolate.wheres ++
      [.test .and (.isNull (s.qualify s.model.deletedAt) (t = .only))] := by
  unfold scopedTo; split <;> rfl

/-- **A scope narrows the predicate.** A row passes the query that runs exactly when it passes the
predicate of the selection and is kept by the scope. -/
theorem passes_scopedTo (hs : s.model.softDeletes = true)
    (hr : ∀ link t, Clause.test link t ∈ s.query.wheres → comparesRaw t = false) (v : Verdict)
    (t : Trashed) : v.passes (s.scopedTo t).wheres ↔ v.passes s.query.wheres ∧ s.keeps v t := by
  rw [wheres_scopedTo, hs]
  cases t with
  | exclude => exact v.passes_isolate s.query rfl hr
  | «include» => simp [keeps]
  | only => exact v.passes_isolate s.query rfl hr

theorem table_isolate (q : Query) : q.isolate.table = q.table := by
  unfold Query.isolate; split <;> rfl

theorem joins_isolate (q : Query) : q.isolate.joins = q.joins := by
  unfold Query.isolate; split <;> rfl

theorem table_scopedTo (t : Trashed) : (s.scopedTo t).table = s.query.table := by
  unfold scopedTo; split
  · rfl
  · exact table_isolate s.query

theorem joins_scopedTo (t : Trashed) : (s.scopedTo t).joins = s.query.joins := by
  unfold scopedTo; split
  · rfl
  · exact joins_isolate s.query

theorem refine_model (f : Query → Query) : (s.refine f).model = s.model := rfl

theorem refine_query (f : Query → Query) : (s.refine f).query = f s.query := rfl

/-- Isolating changes the tests of a query and nothing else. -/
theorem isolate_eq (q : Query) : q.isolate = { q with wheres := q.isolate.wheres } := by
  unfold Query.isolate; split <;> rfl

/-- A scope changes the tests of the query and nothing else. -/
theorem scopedTo_eq (t : Trashed) :
    s.scopedTo t = { s.query with wheres := (s.scopedTo t).wheres } := by
  unfold scopedTo Query.isolate
  split
  · rfl
  · simp only
    split <;> rfl

/-- What the scope of a selection asks of a row; nothing, when the model marks no rows. -/
def InScope (v : Verdict) : Prop := s.model.softDeletes = true → s.keeps v s.trashed

theorem passes_toQuery
    (hr : ∀ link t, Clause.test link t ∈ s.query.wheres → comparesRaw t = false) (v : Verdict) :
    v.passes s.toQuery.wheres ↔ v.passes s.query.wheres ∧ s.InScope v := by
  by_cases hs : s.model.softDeletes = true
  · rw [toQuery, s.passes_scopedTo hs hr, InScope, forall_prop_of_true hs]
  · rw [toQuery, wheres_scopedTo, if_pos (by simp [hs]), InScope]
    simp [hs]

/-- A change of the query that leaves the joins alone leaves the scope alone. -/
theorem inScope_refine {f : Query → Query} (hj : (f s.query).joins = s.query.joins)
    (v : Verdict) : (s.refine f).InScope v ↔ s.InScope v := by
  have hq : (s.refine f).qualify s.model.deletedAt = s.qualify s.model.deletedAt := by
    simp only [qualify, refine, hj]
  have hk : (s.refine f).keeps v s.trashed ↔ s.keeps v s.trashed := by
    cases s.trashed <;> simp only [keeps, refine_model, hq]
  exact imp_congr Iff.rfl hk

/-- A change of the query that leaves joins and tests alone leaves the tests alone in the query
that runs. -/
theorem wheres_scopedTo_refine {f : Query → Query} (hj : (f s.query).joins = s.query.joins)
    (hw : (f s.query).wheres = s.query.wheres) (t : Trashed) :
    ((s.refine f).scopedTo t).wheres = (s.scopedTo t).wheres := by
  have hq : (s.refine f).qualify s.model.deletedAt = s.qualify s.model.deletedAt := by
    simp only [qualify, refine, hj]
  have hi : (f s.query).isolate.wheres = s.query.isolate.wheres := by
    unfold Query.isolate; rw [hw]; split <;> simp [hw]
  rw [wheres_scopedTo, wheres_scopedTo, refine_model, refine_query, hq, hi, hw]

end

/-! ### Operations -/

/-- The operations on the records of a selection. -/
inductive Operation (σ : Type) where
  | get
  | first
  | pluck (column : String)
  | value (column : String)
  | exists_
  | count
  | sum (column : String)
  | avg (column : String)
  | min (column : String)
  | max (column : String)
  | paginate (perPage page : UInt64)
  /-- At most one more chunk than `bound`. -/
  | chunk (bound : Nat) (size : UInt64) (visit : Collection → Action σ Bool)
  | update (assignments : List Assignment)
  | increment (column : String) (amount : Value)
  | decrement (column : String) (amount : Value)
  | delete
  | forceDelete
  | restore

namespace Operation

variable {σ : Type}

/-- Runs an operation; its result is not kept. -/
def run (s : Selection σ) (c : Connection σ) (now : Timestamp) : Operation σ → Action σ Unit
  | get => do let _ ← s.get c
  | first => do let _ ← s.first? c
  | pluck column => do let _ ← s.pluck c column
  | value column => do let _ ← s.value? c column
  | exists_ => do let _ ← s.exists? c
  | count => do let _ ← s.count c
  | sum column => do let _ ← s.sum c column
  | avg column => do let _ ← s.avg? c column
  | min column => do let _ ← s.min? c column
  | max column => do let _ ← s.max? c column
  | paginate perPage page => do let _ ← s.paginate c perPage page
  | chunk bound size visit => do let _ ← s.chunk c (bound + 1) size visit
  | update assignments => do let _ ← s.update c now assignments
  | increment column amount => do let _ ← s.increment c column amount
  | decrement column amount => do let _ ← s.decrement c column amount
  | delete => do let _ ← s.delete c now
  | forceDelete => do let _ ← s.forceDelete c
  | restore => do let _ ← s.restore c now

/-- The scope that an operation runs in. Only marked rows are restored. -/
def scope (s : Selection σ) : Operation σ → Trashed
  | restore => .only
  | _ => s.trashed

end Operation

/-- The forms of the statements that an operation sends of its own, in their order, when it gives a
result on a model that marks deleted rows. -/
def Operation.Issues {σ : Type} (s : Selection σ) (now : Timestamp) (forms : List Form) :
    Operation σ → Prop
  | get | first | pluck _ | value _ => forms = [.select]
  | exists_ => forms = [.probe]
  | count => forms = [.aggregate .count "*"]
  | sum column => forms = [.aggregate .sum column]
  | avg column => forms = [.aggregate .avg column]
  | min column => forms = [.aggregate .min column]
  | max column => forms = [.aggregate .max column]
  | paginate _ _ => forms = [.aggregate .count "*", .select]
  | chunk _ _ _ => ∃ n, forms = List.replicate (n + 1) .select
  | update assignments => forms = [.update (timed s.model now assignments)]
  | increment column amount => forms = [.update [(column, .raw ⟨column ++ " + ?", [amount]⟩)]]
  | decrement column amount => forms = [.update [(column, .raw ⟨column ++ " - ?", [amount]⟩)]]
  | delete =>
    forms = [.update (timed s.model now [(s.model.deletedAt, .value (.timestamp now))])]
  | forceDelete => forms = [.delete]
  | restore =>
    forms = [.update ((s.model.deletedAt, .value .null) ::
      if s.model.timestamps then [(s.model.updatedAt, .value (.timestamp now))] else [])]

/-- The tests for the mark of a row are spelled as tests for null. -/
def SpellsMark {σ : Type} (s : Selection σ) : Prop :=
  let column := s.qualify s.model.deletedAt
  (Word.atom (.isNull column false)).pieces = [.text column, .text " IS NULL"] ∧
    (Word.atom (.isNull column true)).pieces = [.text column, .text " IS NOT NULL"]

/-- A request that asks in this form for the rows that pass the predicate of a selection and that
the scope keeps: the statement of a query on the same tables. The words that it spells as the tests
of rows are passed by the rows in scope that pass the words which the query of the selection, as it
stands without a scope, spells. -/
def Scoped {σ : Type} (s : Selection σ) (t : Trashed) (name : String) (d : Dialect) (f : Form)
    (e : Sent) : Prop :=
  ∃ (q : Query) (ws own : List (Word Test)),
    e.adapter = name ∧ f.statement d q = .ok ⟨e.sql, e.bindings⟩ ∧ f.Filters ∧
      q.table = s.query.table ∧ q.joins = s.query.joins ∧ q.TestedBy ws ∧ s.query.TestedBy own ∧
        s.SpellsMark ∧ ∀ v : Verdict, v.passesWords ws ↔ v.passesWords own ∧ s.keeps v t

section

variable {υ : Type} {s : Selection (Script υ)} {driver name : String} {d : Dialect}
variable {scope : Except Fault (Option String)} {now : Timestamp} {Q : Sent → Prop}

/-- What the loaders of the relations to load send satisfies `Q`. -/
def Loads (s : Selection (Script υ)) (c : Connection (Script υ)) (Q : Sent → Prop) : Prop :=
  ∀ relation ∈ s.eager, ∀ loader, s.loader? relation = .ok loader →
    ∀ records, SendsOnly Q (loader c relation records)

/-- A query on the tables of a selection, with the tests of the query that runs in a scope. -/
structure Narrows (s : Selection (Script υ)) (t : Trashed) (q : Query) : Prop where
  table : q.table = s.query.table
  joins : q.joins = s.query.joins
  wheres : q.wheres = (s.scopedTo t).wheres

theorem Narrows.select {t : Trashed} {q : Query} (h : s.Narrows t q) (columns : List String) :
    s.Narrows t (q.select columns) := ⟨h.table, h.joins, h.wheres⟩

theorem Narrows.take {t : Trashed} {q : Query} (h : s.Narrows t q) (n : UInt64) :
    s.Narrows t (q.take n) := ⟨h.table, h.joins, h.wheres⟩

theorem narrows_scopedTo (t : Trashed) : s.Narrows t (s.scopedTo t) :=
  ⟨s.table_scopedTo t, s.joins_scopedTo t, rfl⟩

theorem narrows_refine {f : Query → Query} (ht : (f s.query).table = s.query.table)
    (hj : (f s.query).joins = s.query.joins) (hw : (f s.query).wheres = s.query.wheres) :
    s.Narrows s.trashed (s.refine f).toQuery :=
  ⟨((s.refine f).table_scopedTo s.trashed).trans ht,
    ((s.refine f).joins_scopedTo s.trashed).trans hj, s.wheres_scopedTo_refine hj hw s.trashed⟩

variable (hs : s.model.softDeletes = true)
variable (hr : ∀ link t, Clause.test link t ∈ s.query.wheres → comparesRaw t = false)

include hs hr in
/-- The statement of a query that narrows the selection asks for the rows in scope. -/
theorem asks_scoped {t : Trashed} {q : Query} (hq : s.Narrows t q) {f : Form} (hf : f.Filters) :
    Asks (s.Scoped t name d f) name d q f := fun st hst =>
  ⟨q, _, _, rfl, hst, hf, hq.table, hq.joins, q.testedBy, s.query.testedBy, ⟨rfl, rfl⟩, fun v => by
    rw [← v.passes_iff_passesWords, ← v.passes_iff_passesWords, hq.wheres]
    exact s.passes_scopedTo hs hr v t⟩

/-! ### Statements of operations -/

section

variable {P : Sent → Prop} (hl : s.Loads (connection driver d name scope) Q)

include hl in
theorem sends_loadAll : ∀ (names : List String), (∀ n ∈ names, n ∈ s.eager) → ∀ records,
    SendsOnly Q (s.loadAll (connection driver d name scope) names records)
  | [], _, records => .pure records
  | n :: names, hn, records => by
    rw [loadAll]
    cases hloader : s.loader? n with
    | error cause => exact .ofExcept (.error cause)
    | ok loader =>
      have hload := hl n (hn n List.mem_cons_self) loader hloader records
      exact (sends_report _).bind_only fun _ => hload.bind_only fun records =>
        sends_loadAll names (fun n h => hn n (List.mem_cons_of_mem _ h)) records

include hl in
theorem sends_hydrate (rows : List Row) :
    SendsOnly Q (s.hydrate (connection driver d name scope) rows) := by
  unfold hydrate
  simp only
  split
  · exact .pure _
  · exact (sends_loadAll hl s.eager (fun _ h => h) _).bind_only fun _ => .pure _

include hl in
theorem sends_records (h : Asks P name d s.toQuery .select) :
    SendsEach [P] Q (s.get (connection driver d name scope)) :=
  (sends_get h).each_then fun rows => sends_hydrate hl rows

theorem sends_proceed {goOn : Bool} {count size : UInt64} {next : Action (Script υ) Ending}
    (h : SendsOnly P next) : SendsOnly P (proceed goOn count size next) := by
  unfold proceed
  split
  · exact .pure _
  · split
    · exact .pure _
    · exact h

include hl in
/-- Chunks by offset: one statement for each, and what loaders and the visitor send. -/
theorem sends_chunksFrom {size : UInt64} {visit : Collection → Action (Script υ) Bool}
    (hv : ∀ records, SendsOnly Q (visit records))
    (h : ∀ page, Asks P name d (s.refine (·.forPage page size)).toQuery .select) :
    ∀ bound page, SendsSome P Q
      (s.chunksFrom (connection driver d name scope) size visit (bound + 1) page) := by
  -- behind the first chunk it does not matter whether there is another
  have step : ∀ bound page,
      (∀ page, SendsOnly (fun e => P e ∨ Q e)
        (s.chunksFrom (connection driver d name scope) size visit bound page)) →
      SendsSome P Q
        (s.chunksFrom (connection driver d name scope) size visit (bound + 1) page) := by
    intro bound page hnext
    refine (sends_records (s := s.refine (·.forPage page size)) hl (h page)).some.bind_some
      fun records => ?_
    split
    · exact .pure _
    · exact (sends_report _).bind_only fun _ =>
        ((hv records).weaken fun _ => .inr).bind_only fun _ => sends_proceed (hnext (page + 1))
  intro bound
  induction bound with
  | zero => exact fun page => step 0 page fun _ => .pure _
  | succ bound ih => exact fun page => step (bound + 1) page fun page => (ih page).only

end

/-! ### The scope of operations -/

section

variable (hs : s.model.softDeletes = true)
variable (hr : ∀ link t, Clause.test link t ∈ s.query.wheres → comparesRaw t = false)
variable (hl : s.Loads (connection driver d name scope) Q)

include hs hr in
theorem aggregate_scoped (a : Aggregate) (column : String) :
    SendsEach [s.Scoped s.trashed name d (.aggregate a column)] Q
      (s.toQuery.aggregate? (connection driver d name scope : Connection (Script υ)) a column) :=
  sends_aggregate a column
    (asks_scoped hs hr (s.narrows_scopedTo s.trashed) (Form.filters_aggregate a column))

include hs hr in
theorem update_scoped (t : Trashed) (values : List Assignment) :
    SendsEach [s.Scoped t name d (.update values)] Q
      ((s.scopedTo t).update (connection driver d name scope : Connection (Script υ)) values) :=
  sends_update values (asks_scoped hs hr (s.narrows_scopedTo t) (Form.filters_update values))

include hs hr hl in
/-- Records of a selection whose query was changed elsewhere than in its joins and tests. -/
theorem records_scoped {f : Query → Query} (ht : (f s.query).table = s.query.table)
    (hj : (f s.query).joins = s.query.joins) (hw : (f s.query).wheres = s.query.wheres) :
    SendsEach [s.Scoped s.trashed name d .select] Q
      ((s.refine f).get (connection driver d name scope)) :=
  sends_records (s := s.refine f) hl
    (asks_scoped hs hr (narrows_refine ht hj hw) Form.filters_select)

include hs hr in
theorem count_scoped :
    SendsEach [s.Scoped s.trashed name d (.aggregate .count "*")] Q
      (s.count (connection driver d name scope)) :=
  (aggregate_scoped hs hr .count "*").each_then fun _ => .pure _

include hs hr hl in
theorem paginate_scoped (perPage page : UInt64) :
    SendsEach [s.Scoped s.trashed name d (.aggregate .count "*"),
        s.Scoped s.trashed name d .select] Q
      (s.paginate (connection driver d name scope) perPage page) := by
  unfold paginate
  by_cases h : perPage = 0
  · simp only [h, if_true]
    exact .throw _
  · simp only [h, if_false]
    refine (count_scoped hs hr).bind_each fun total => ?_
    refine (records_scoped hs hr hl rfl rfl rfl).each_then fun data => ?_
    exact (sends_report _).bind_only fun _ => .pure _

include hs hr hl in
theorem chunk_scoped (bound : Nat) (size : UInt64) (visit : Collection → Action (Script υ) Bool)
    (hv : ∀ records, SendsOnly Q (visit records)) :
    SendsSome (s.Scoped s.trashed name d .select) Q
      (s.chunk (connection driver d name scope) (bound + 1) size visit) := by
  unfold chunk
  split
  · exact (Sends.throw _).some
  · exact sends_chunksFrom hl hv (fun page =>
      asks_scoped hs hr (narrows_refine rfl rfl rfl) Form.filters_select) bound 1

end

/-- What the visitor of an operation sends satisfies `Q`. -/
def Operation.Visits (Q : Sent → Prop) : Operation (Script υ) → Prop
  | .chunk _ _ visit => ∀ records, SendsOnly Q (visit records)
  | _ => True

/-- The operation sends of its own the statements that it issues, in their order, each scoped; and
beside them what satisfies `Q`. When it gives no result, it may end behind any of them. -/
def Operation.SendsScoped (s : Selection (Script υ)) (c : Connection (Script υ)) (name : String)
    (now : Timestamp) (Q : Sent → Prop) (op : Operation (Script υ)) : Prop :=
  Sends (fun r more => ∃ all done, op.Issues s now all ∧ done <+: all ∧
    Each Q (done.map (s.Scoped (op.scope s) name c.dialect)) more ∧ ∀ x, r = .ok x → done = all)
    (op.run s c now)

/-- An operation that runs an action sends what this sends. -/
theorem Operation.sendsScoped_of_each {α : Type} {op : Operation (Script υ)} {forms : List Form}
    {a : Action (Script υ) α}
    (hrun : op.run s (connection driver d name scope) now = a >>= fun _ => pure ())
    (hforms : op.Issues s now forms)
    (h : SendsEach (forms.map (s.Scoped (op.scope s) name d)) Q a) :
    op.SendsScoped s (connection driver d name scope) name now Q := by
  rw [SendsScoped, hrun]
  refine (h.each_then fun _ => .pure _).mono fun r more h => ?_
  obtain ⟨_, hsent, heach, hall⟩ := h
  obtain ⟨done, hdone, rfl⟩ := List.prefix_map_iff.1 hsent
  refine ⟨forms, done, hforms, hdone, heach, fun x hx => hdone.eq_of_length ?_⟩
  simpa using congrArg List.length (hall x hx)

theorem Operation.sendsScoped_chunk {bound : Nat} {size : UInt64}
    {visit : Collection → Action (Script υ) Bool}
    (h : SendsSome (s.Scoped s.trashed name d .select) Q
      ((chunk bound size visit).run s (connection driver d name scope) now)) :
    (chunk bound size visit).SendsScoped s (connection driver d name scope) name now Q :=
  h.mono fun r more h => by
    obtain ⟨n, heach, hn⟩ := Each.exists_replicate h.1
    rw [← List.map_replicate] at heach
    cases n with
    | zero => exact ⟨[.select], [], ⟨0, rfl⟩, List.nil_prefix, heach, fun x hx =>
        absurd rfl (hn (h.2 x hx))⟩
    | succ n => exact ⟨_, _, ⟨n, rfl⟩, List.prefix_rfl, heach, fun _ _ => rfl⟩

/-- **Operations stay in scope.** On a model that marks deleted rows, and with no comparison with
raw text at the top of the predicate, an operation sends of its own the statements that it issues,
each of which asks for the rows that pass the predicate and that its scope keeps. Both statements of
a page are among them, and at least one for a run over chunks. What its loaders and its visitor
send, and nothing else, is sent beside them. -/
theorem sends_scoped (hs : s.model.softDeletes = true)
    (hr : ∀ link t, Clause.test link t ∈ s.query.wheres → comparesRaw t = false)
    (op : Operation (Script υ)) (hl : s.Loads (connection driver d name scope) Q)
    (hv : op.Visits Q) : op.SendsScoped s (connection driver d name scope) name now Q := by
  have narrows := s.narrows_scopedTo s.trashed
  -- a run over chunks tells its statements by their number, all others by their list
  cases op with
  | chunk bound size visit =>
    refine Operation.sendsScoped_chunk ?_
    exact (chunk_scoped hs hr hl bound size visit hv).bind_some fun _ => .pure _
  | get =>
    exact Operation.sendsScoped_of_each rfl rfl
      (records_scoped (f := id) hs hr hl rfl rfl rfl)
  | first =>
    have h := records_scoped (f := (·.take 1)) hs hr hl rfl rfl rfl
    exact Operation.sendsScoped_of_each rfl rfl (h.each_then fun _ => .pure _)
  | pluck column =>
    exact Operation.sendsScoped_of_each rfl rfl (sends_pluck column
      (asks_scoped hs hr (narrows.select [column]) Form.filters_select))
  | value column =>
    exact Operation.sendsScoped_of_each rfl rfl (sends_value column
      (asks_scoped hs hr ((narrows.select [column]).take 1) Form.filters_select))
  | exists_ =>
    exact Operation.sendsScoped_of_each rfl rfl
      (sends_exists (asks_scoped hs hr narrows Form.filters_probe))
  | count => exact Operation.sendsScoped_of_each rfl rfl (count_scoped hs hr)
  | sum column =>
    exact Operation.sendsScoped_of_each rfl rfl
      ((aggregate_scoped hs hr .sum column).each_then fun _ => .pure _)
  | avg column =>
    exact Operation.sendsScoped_of_each rfl rfl
      ((aggregate_scoped hs hr .avg column).each_then fun _ => .pure _)
  | min column =>
    exact Operation.sendsScoped_of_each rfl rfl (aggregate_scoped hs hr .min column)
  | max column =>
    exact Operation.sendsScoped_of_each rfl rfl (aggregate_scoped hs hr .max column)
  | paginate perPage page =>
    exact Operation.sendsScoped_of_each rfl rfl (paginate_scoped hs hr hl perPage page)
  | update assignments =>
    exact Operation.sendsScoped_of_each rfl rfl (update_scoped hs hr s.trashed _)
  | increment column amount =>
    exact Operation.sendsScoped_of_each rfl rfl (update_scoped hs hr s.trashed _)
  | decrement column amount =>
    exact Operation.sendsScoped_of_each rfl rfl (update_scoped hs hr s.trashed _)
  | delete =>
    refine Operation.sendsScoped_of_each rfl rfl ?_
    rw [delete, if_pos hs]
    exact update_scoped hs hr s.trashed _
  | forceDelete =>
    exact Operation.sendsScoped_of_each rfl rfl
      (sends_delete (asks_scoped hs hr narrows Form.filters_delete))
  | restore =>
    refine Operation.sendsScoped_of_each rfl rfl ?_
    rw [restore, if_pos hs]
    exact update_scoped hs hr .only _

/-- Restoring the marked rows among those that pass a test or a raw one. -/
theorem sends_scoped_restore :
    let s : Selection (Script Unit) := (all { table := "posts", softDeletes := true }).refine
      fun q => (q.filter .and (.among "id" [.int 1] false)).filter .or (.raw ⟨"b > ?", [.int 2]⟩)
    let c : Connection (Script Unit) := connection "pg" .postgres "main" (.ok none)
    s.model.softDeletes = true ∧
      (∀ link t, Clause.test link t ∈ s.query.wheres → comparesRaw t = false) ∧
        s.Loads c (fun _ => False) ∧ Operation.restore.Visits (υ := Unit) (fun _ => False) ∧
          Operation.restore.SendsScoped s c "main" default (fun _ => False) ∧
            ((Operation.restore.run s c default).from_ (start ())).2.log =
              [⟨"main", "UPDATE posts SET deleted_at = $1 " ++
                "WHERE (id IN ($2) OR b > $3) AND deleted_at IS NOT NULL",
                [.null, .int 1, .int 2]⟩] := by
  intro s c
  have hr : ∀ link t, Clause.test link t ∈ s.query.wheres → comparesRaw t = false := by
    intro link t ht
    have ht : Clause.test link t = .test .and (.among "id" [.int 1] false) ∨
        Clause.test link t = .test .or (.raw ⟨"b > ?", [.int 2]⟩) := by
      simpa [s, refine, all, Query.filter, Query.checkTest, Test.operator?, Query.on] using ht
    rcases ht with h | h <;> cases h <;> rfl
  have hl : s.Loads c (fun _ => False) := fun _ h => absurd h List.not_mem_nil
  exact ⟨rfl, hr, hl, trivial, sends_scoped rfl hr .restore hl trivial, rfl⟩

end

end ActiveRow.Selection
