import ActiveRow.Proofs.Plan.Query
import ActiveRow.Selection.Chunk
import ActiveRow.Selection.Write

/-!
# Plans of selections

Records are rows and, behind them, the relations to load, one statement each. A page is a count and
then records. Chunks are records, time and again, until a chunk is empty or short.

Two kinds of code belong to the caller: loaders of relations, and visitors of chunks. They have
plans of their own, which may take a failure and go on.

* `Selection.Terminal.plan`: what the operations do, given the plans of these guests.
* `Selection.Terminal.follows`: that they do it, when the guests do as their plans say.
* `Selection.chunks_finish`: chunks that do not end use up the replies.
-/

namespace ActiveRow

open Plan (one)
open Script (Follows)

/-! ### Relations -/

/-- **The plan of the loader of a relation**: one statement for the related rows of all records,
unless none has a value to look for. -/
def Relation.plan {υ : Type} (rel : Relation) (d : Dialect) (name : String)
    (parents : List Record) : Plan υ (List Record) :=
  let attach (rows : List Row) := parents.map fun p => p.setRelation name (rel.related p rows)
  let keys := rel.localValues parents
  if keys.isEmpty then pure (attach [])
  else one ((rel.query keys).selectStatement d) fun out => attach out.rows

theorem Relation.follows {υ : Type} {driver name : String} {d : Dialect}
    {scope : Except Fault (Option String)} {strict : Prop} (rel : Relation) (relation : String)
    (parents : List Record) :
    Follows (υ := υ) name strict (rel.plan d relation parents)
      (rel.loader (Script.connection driver d name scope) relation parents) := by
  rw [loader_eq]
  simp only [plan, relatedRows]
  split
  · exact .pure _
  · exact (Query.follows_rows _).map fun _ => rfl

/-! ### Selections -/

/-- What the code of a caller does: its loaders, each by the name of a relation, and its visitor of
chunks. -/
structure Guests (υ : Type) where
  loads : String → List Record → Plan υ (List Record)
  visits : Collection → Plan υ Bool

/-- The operations that run a selection, each with the type of what it gives. -/
inductive Selection.Terminal (σ : Type) : Type → Type
  | get : Terminal σ Collection
  | first? : Terminal σ (Option Record)
  | find? (key : Value) : Terminal σ (Option Record)
  | findMany (keys : List Value) : Terminal σ Collection
  | find (key : Value) : Terminal σ Record
  | first : Terminal σ Record
  | value? (column : String) : Terminal σ (Option Value)
  | pluck (column : String) : Terminal σ (List Value)
  | exists? : Terminal σ Bool
  | lacks : Terminal σ Bool
  | count : Terminal σ UInt64
  | sum (column : String) : Terminal σ Double
  | avg? (column : String) : Terminal σ (Option Double)
  | min? (column : String) : Terminal σ (Option Value)
  | max? (column : String) : Terminal σ (Option Value)
  | paginate (perPage page : UInt64) : Terminal σ Page
  /-- At most `bound` chunks: no restriction where the bound is beyond the replies that are left. -/
  | chunk (bound : Nat) (size : UInt64) (visit : Collection → Action σ Bool) : Terminal σ Ending
  | chunkByKey (bound : Nat) (size : UInt64) (visit : Collection → Action σ Bool) :
      Terminal σ Ending
  | update (assignments : List Assignment) : Terminal σ UInt64
  | increment (column : String) (amount : Value) : Terminal σ UInt64
  | decrement (column : String) (amount : Value) : Terminal σ UInt64
  | delete : Terminal σ UInt64
  | forceDelete : Terminal σ UInt64
  | restore : Terminal σ UInt64

namespace Selection

section

variable {σ υ α : Type}

def Terminal.run (s : Selection σ) (c : Connection σ) (now : Timestamp) :
    Terminal σ α → Action σ α
  | get => s.get c
  | first? => s.first? c
  | find? key => s.find? c key
  | findMany keys => s.findMany c keys
  | find key => s.find c key
  | first => s.first c
  | value? column => s.value? c column
  | pluck column => s.pluck c column
  | exists? => s.exists? c
  | lacks => s.lacks c
  | count => s.count c
  | sum column => s.sum c column
  | avg? column => s.avg? c column
  | min? column => s.min? c column
  | max? column => s.max? c column
  | paginate perPage page => s.paginate c perPage page
  | chunk bound size visit => s.chunk c bound size visit
  | chunkByKey bound size visit => s.chunkByKey c bound size visit
  | update assignments => s.update c now assignments
  | increment column amount => s.increment c column amount
  | decrement column amount => s.decrement c column amount
  | delete => s.delete c now
  | forceDelete => s.forceDelete c
  | restore => s.restore c now

variable (driver : String) (d : Dialect) (g : Guests υ)

/-- The plan of loading relations: one after the other, by the loader of each. -/
def loadPlan (s : Selection σ) : List String → List Record → Plan υ (List Record)
  | [], records => pure records
  | name :: rest, records => do
    let loaded ← match Pairs.get? name s.loaders, Pairs.get? name s.model.relations with
      | some _, _ => g.loads name records
      | none, some rel => rel.plan d name records
      | none, none => .ends (.error (.configuration (.relation name s.model.table)))
    s.loadPlan rest loaded

/-- The plan of records: their rows, and the relations to load for them, if there are any rows. -/
def recordsPlan (s : Selection σ) : Plan υ Collection := do
  let rows ← one (s.toQuery.selectStatement d) Output.rows
  if rows.isEmpty then pure ⟨s.model, []⟩
  else pure ⟨s.model, ← s.loadPlan d g s.eager (rows.map s.model.hydrate)⟩

def firstPlan (s : Selection σ) : Plan υ (Option Record) := do
  pure (← (s.refine (·.take 1)).recordsPlan d g).first?

def findPlan (s : Selection σ) (key : Value) : Plan υ (Option Record) :=
  (s.refine (·.whereEq (s.qualify s.model.primaryKey) key)).firstPlan d g

/-- A record that must be there. -/
def required (cause : Fault) : Option Record → Plan υ Record
  | some r => pure r
  | none => .ends (.error cause)

/-- The plan of a page: a count, and then the records. -/
def pagePlan (s : Selection σ) (perPage page : UInt64) : Plan υ Page :=
  if perPage = 0 then .ends (.error (.validation .pageSize))
  else do
    let page := if page = 0 then 1 else page
    let total ← one (s.toQuery.aggregateStatement d .count "*") fun out =>
      Query.countOf (Query.aggregateOf out)
    let data ← (s.refine (·.forPage page perPage)).recordsPlan d g
    pure (Page.ofData data total perPage page)

/-- The plan of what follows a chunk. -/
def proceedPlan (goOn : Bool) (count size : UInt64) (next : Plan υ Ending) : Plan υ Ending :=
  if !goOn then pure .stopped else if count < size then pure .complete else next

/-- The plan of chunks by offset: a page, the visitor, and the next page. -/
def chunksPlan (s : Selection σ) (size : UInt64) : Nat → UInt64 → Plan υ Ending
  | 0, _ => pure .unfinished
  | bound + 1, page => do
    let records ← (s.refine (·.forPage page size)).recordsPlan d g
    if records.isEmpty then pure .complete
    else
      proceedPlan (← g.visits records) (UInt64.ofNat records.size) size
        (s.chunksPlan size bound (page + 1))

/-- The plan of chunks by key. -/
def keyedChunksPlan (s : Selection σ) (size : UInt64) : Nat → Option Value → Plan υ Ending
  | 0, _ => pure .unfinished
  | bound + 1, last => do
    let records ← (s.keyedPage size last).recordsPlan d g
    if records.isEmpty then pure .complete
    else do
      let key ← .ends (s.lastKey records)
      proceedPlan (← g.visits records) (UInt64.ofNat records.size) size
        (s.keyedChunksPlan size bound (some key))

/-- **The plan of an operation on a selection.** -/
def Terminal.plan (s : Selection σ) (now : Timestamp) : Terminal σ α → Plan υ α
  | get => s.recordsPlan d g
  | first? => s.firstPlan d g
  | find? key => s.findPlan d g key
  | findMany keys =>
    (s.refine (·.filter .and (.among (s.qualify s.model.primaryKey) keys false))).recordsPlan d g
  | find key => do
    required (.notFound (.model s.model.table s.model.primaryKey key.plain)) (← s.findPlan d g key)
  | first => do required (.notFound (.row s.model.table)) (← s.firstPlan d g)
  | value? column => (Query.Terminal.value? column).plan driver d s.toQuery
  | pluck column => (Query.Terminal.pluck column).plan driver d s.toQuery
  | exists? => Query.Terminal.exists?.plan driver d s.toQuery
  | lacks => Query.Terminal.lacks.plan driver d s.toQuery
  | count => Query.Terminal.count.plan driver d s.toQuery
  | sum column => (Query.Terminal.sum column).plan driver d s.toQuery
  | avg? column => (Query.Terminal.avg? column).plan driver d s.toQuery
  | min? column => (Query.Terminal.min? column).plan driver d s.toQuery
  | max? column => (Query.Terminal.max? column).plan driver d s.toQuery
  | paginate perPage page => s.pagePlan d g perPage page
  | chunk bound size _ =>
    if size = 0 then .ends (.error (.validation .chunkSize)) else s.chunksPlan d g size bound 1
  | chunkByKey bound size _ =>
    if size = 0 then .ends (.error (.validation .chunkSize))
    else s.keyedChunksPlan d g size bound none
  | update assignments =>
    (Query.Terminal.update (timed s.model now assignments)).plan driver d s.toQuery
  | increment column amount => (Query.Terminal.increment column amount).plan driver d s.toQuery
  | decrement column amount => (Query.Terminal.decrement column amount).plan driver d s.toQuery
  | delete =>
    if s.model.softDeletes then
      (Query.Terminal.update (timed s.model now
        [(s.model.deletedAt, .value (.timestamp now))])).plan driver d s.toQuery
    else Query.Terminal.delete.plan driver d s.toQuery
  | forceDelete => Query.Terminal.delete.plan driver d s.toQuery
  | restore =>
    if s.model.softDeletes then
      (Query.Terminal.update ((s.model.deletedAt, .value .null) ::
        if s.model.timestamps then [(s.model.updatedAt, .value (.timestamp now))] else [])).plan
          driver d (s.scopedTo .only)
    else pure 0

end

section

variable {υ α : Type} {driver name : String} {d : Dialect} {scope : Except Fault (Option String)}
variable {strict : Prop}
variable {s : Selection (Script υ)} {g : Guests υ}

/-- The loaders of a selection follow the plans of the guests. -/
def Hosts (name : String) (strict : Prop) (c : Connection (Script υ)) (g : Guests υ)
    (s : Selection (Script υ)) : Prop :=
  ∀ relation loader, Pairs.get? relation s.loaders = some loader →
    ∀ records, Follows name strict (g.loads relation records) (loader c relation records)

/-- The visitor of an operation follows the plan of the guests. -/
def Terminal.Hosts (name : String) (strict : Prop) (g : Guests υ) : Terminal (Script υ) α → Prop
  | chunk _ _ visit | chunkByKey _ _ visit =>
    ∀ records, Follows name strict (g.visits records) (visit records)
  | _ => True

theorem follows_proceed {goOn : Bool} {count size : UInt64} {p : Plan υ Ending}
    {next : Action (Script υ) Ending} (hnext : Follows name strict p next) :
    Follows name strict (proceedPlan goOn count size p) (proceed goOn count size next) := by
  unfold proceedPlan proceed
  split
  · exact .pure _
  · split
    · exact .pure _
    · exact hnext

section

variable (h : s.Hosts name strict (Script.connection driver d name scope) g)

include h

theorem follows_loadAll : ∀ names records, Follows name strict (s.loadPlan d g names records)
    (s.loadAll (Script.connection driver d name scope) names records)
  | [], records => .pure records
  | relation :: rest, records => by
    rw [loadPlan, loadAll, loader?]
    cases hown : Pairs.get? relation s.loaders with
    | some loader =>
      exact .report _ ((h relation loader hown records).bind fun loaded =>
        follows_loadAll rest loaded)
    | none =>
      cases Pairs.get? relation s.model.relations with
      | some rel =>
        exact .report _ ((rel.follows relation records).bind fun loaded =>
          follows_loadAll rest loaded)
      | none => exact .throw _

theorem follows_get : Follows name strict (s.recordsPlan d g)
    (s.get (Script.connection driver d name scope)) := by
  refine (Query.follows_rows _).bind fun rows => ?_
  simp only [hydrate, List.isEmpty_map]
  split
  · exact .pure _
  · exact (follows_loadAll h _ _).bind fun _ => .pure _

theorem follows_first : Follows name strict (s.firstPlan d g)
    (s.first? (Script.connection driver d name scope)) :=
  (follows_get (s := s.refine _) h).bind fun _ => .pure _

theorem follows_find (key : Value) : Follows name strict (s.findPlan d g key)
    (s.find? (Script.connection driver d name scope) key) :=
  follows_first (s := s.refine _) h

theorem follows_paginate (perPage page : UInt64) : Follows name strict (s.pagePlan d g perPage page)
    (s.paginate (Script.connection driver d name scope) perPage page) := by
  unfold pagePlan paginate
  by_cases hsize : perPage = 0
  · simp only [if_pos hsize]
    exact .throw _
  · simp only [if_neg hsize]
    refine ((Query.follows_aggregate _ _ _).map fun _ => rfl).bind fun total => ?_
    exact (follows_get (s := s.refine _) h).bind fun data => .report _ (.pure _)

section

variable {size : UInt64} {visit : Collection → Action (Script υ) Bool}
variable (hv : ∀ records, Follows name strict (g.visits records) (visit records))

include hv

/-- A chunk by offset after another. -/
theorem follows_chunksFrom : ∀ bound page, Follows name strict (s.chunksPlan d g size bound page)
    (s.chunksFrom (Script.connection driver d name scope) size visit bound page)
  | 0, _ => .pure _
  | bound + 1, page => by
    refine (follows_get (s := s.refine _) h).bind fun records => ?_
    split
    · exact .pure _
    · exact .report _ ((hv records).bind fun goOn =>
        follows_proceed (follows_chunksFrom bound (page + 1)))

/-- A chunk by key after another. -/
theorem follows_keyedChunksFrom : ∀ bound last,
    Follows name strict (s.keyedChunksPlan d g size bound last)
      (s.keyedChunksFrom (Script.connection driver d name scope) size visit bound last)
  | 0, _ => .pure _
  | bound + 1, last => by
    refine (follows_get (s := s.keyedPage size last) h).bind fun records => ?_
    split
    · exact .pure _
    · refine (Follows.ofExcept (s.lastKey records)).bind fun key => ?_
      exact .report _ ((hv records).bind fun goOn =>
        follows_proceed (follows_keyedChunksFrom bound (some key)))

end

/-- **An operation on a selection follows its plan**, when the guests follow theirs. -/
theorem Terminal.follows {now : Timestamp} (op : Terminal (Script υ) α)
    (hv : op.Hosts name strict g) :
    Follows name strict (op.plan driver d g s now)
      (op.run s (Script.connection driver d name scope) now) := by
  cases op with
  | get => exact follows_get h
  | first? => exact follows_first h
  | find? key => exact follows_find h key
  | findMany keys => exact follows_get (s := s.refine _) h
  | find key =>
    refine (follows_find h key).bind fun r => ?_
    cases r with
    | some r => exact .pure r
    | none => exact .throw _
  | first =>
    refine (follows_first h).bind fun r => ?_
    cases r with
    | some r => exact .pure r
    | none => exact .throw _
  | value? column => exact Query.Terminal.follows _ (.value? column)
  | pluck column => exact Query.Terminal.follows _ (.pluck column)
  | exists? => exact Query.Terminal.follows _ .exists?
  | lacks => exact Query.Terminal.follows _ .lacks
  | count => exact Query.Terminal.follows _ .count
  | sum column => exact Query.Terminal.follows _ (.sum column)
  | avg? column => exact Query.Terminal.follows _ (.avg? column)
  | min? column => exact Query.Terminal.follows _ (.min? column)
  | max? column => exact Query.Terminal.follows _ (.max? column)
  | paginate perPage page => exact follows_paginate h perPage page
  | chunk bound size visit =>
    simp only [plan, run, Selection.chunk]
    split
    · exact .throw _
    · exact follows_chunksFrom h hv bound 1
  | chunkByKey bound size visit =>
    simp only [plan, run, Selection.chunkByKey]
    split
    · exact .throw _
    · exact follows_keyedChunksFrom h hv bound none
  | update assignments =>
    exact Query.Terminal.follows _ (.update (timed s.model now assignments))
  | increment column amount => exact Query.Terminal.follows _ (.increment column amount)
  | decrement column amount => exact Query.Terminal.follows _ (.decrement column amount)
  | delete =>
    simp only [plan, run, Selection.delete]
    split
    · exact Query.Terminal.follows _ (.update _)
    · exact Query.Terminal.follows _ .delete
  | forceDelete => exact Query.Terminal.follows _ .delete
  | restore =>
    simp only [plan, run, Selection.restore]
    split
    · exact Query.Terminal.follows _ (.update _)
    · exact .pure 0

end

end

/-! ### Bounds of chunks -/

section

variable {υ : Type} {d : Dialect} {g : Guests υ} {σ : Type} {s : Selection σ}

/-- Records that are there have used up a reply. -/
theorem recordsPlan_consumes {replies : List Reply} {u : υ} {records : Collection}
    (h : ((s.recordsPlan d g).run replies u).result = .ok records)
    (hsome : ¬records.isEmpty = true) :
    (replies.drop ((s.recordsPlan d g).run replies u).sent.length).length < replies.length := by
  obtain ⟨rows, hrows, hrecords, hrun⟩ := Plan.run_bind_eq_ok h
  obtain ⟨statement, out, hsent, hreply, rfl⟩ := Plan.run_one_eq_ok hrows
  have hreplies : 0 < replies.length := by
    refine List.length_pos_iff.2 fun hnil => hsome ?_
    -- without a reply there are no rows
    obtain rfl : Output.affected 0 = out := by
      rw [hnil] at hreply
      exact Except.ok.inj hreply
    obtain rfl : Collection.mk s.model [] = records := Except.ok.inj hrecords
    rfl
  have hlength : 0 < ((s.recordsPlan d g).run replies u).sent.length := by
    rw [recordsPlan, hrun, Plan.Outcome.sent_andThen, hsent]
    exact Nat.succ_pos _
  rw [List.length_drop]
  omega

/-- On fewer than `n` replies the plan does not end at its bound. -/
def Finishes (n : Nat) (p : Plan υ Ending) : Prop :=
  ∀ replies u, replies.length < n → (p.run replies u).result ≠ .ok .unfinished

namespace Finishes

variable {n : Nat}

theorem bind {α : Type} {p : Plan υ α} {k : α → Plan υ Ending} (h : ∀ x, Finishes n (k x)) :
    Finishes n (p >>= k) := by
  intro replies u hn hresult
  obtain ⟨x, -, hrest, -⟩ := Plan.run_bind_eq_ok hresult
  refine h x _ _ ?_ hrest
  rw [List.length_drop]
  omega

theorem proceed {goOn : Bool} {count size : UInt64} {p : Plan υ Ending} (h : Finishes n p) :
    Finishes n (proceedPlan goOn count size p) := by
  unfold proceedPlan
  split
  · exact fun _ _ _ => nofun
  · split
    · exact fun _ _ _ => nofun
    · exact h

/-- What goes on behind records has one reply less to go on with. -/
theorem records {rest : Collection → Plan υ Ending} (h : ∀ records, Finishes n (rest records)) :
    Finishes (n + 1) (s.recordsPlan d g >>= fun records =>
      if records.isEmpty then pure .complete else rest records) := by
  intro replies u hn hresult
  obtain ⟨records, hrecords, hrest, -⟩ := Plan.run_bind_eq_ok hresult
  split at hrest
  · cases hrest
  · rename_i hsome
    have hused := recordsPlan_consumes hrecords hsome
    exact h records _ _ (by omega) hrest

theorem chunks {size : UInt64} : ∀ bound page, Finishes bound (s.chunksPlan d g size bound page)
  | 0, _ => fun _ _ h => absurd h (Nat.not_lt_zero _)
  | bound + 1, page => .records fun _ => .bind fun _ => .proceed (chunks bound (page + 1))

theorem keyedChunks {size : UInt64} : ∀ bound last,
    Finishes bound (s.keyedChunksPlan d g size bound last)
  | 0, _ => fun _ _ h => absurd h (Nat.not_lt_zero _)
  | bound + 1, _ =>
    .records fun _ => .bind fun key => .bind fun _ => .proceed (keyedChunks bound (some key))

end Finishes

end

section

variable {υ : Type} {driver name : String} {d : Dialect} {scope : Except Fault (Option String)}
variable {strict : Prop} {s : Selection (Script υ)} {g : Guests υ}

/-- **The bound of chunks is no restriction.** Where more chunks are allowed than there are replies
left, an operation on chunks ends for another reason. -/
theorem chunks_finish (h : s.Hosts name strict (Script.connection driver d name scope) g)
    {visit : Collection → Action (Script υ) Bool}
    (hv : ∀ records, Follows name strict (g.visits records) (visit records)) {st : Script υ}
    {bound : Nat} (hbound : (st.pending name).length < bound) (size : UInt64) :
    ((s.chunk (Script.connection driver d name scope) bound size visit).from_ st).1 ≠
        .ok .unfinished ∧
      ((s.chunkByKey (Script.connection driver d name scope) bound size visit).from_ st).1 ≠
        .ok .unfinished := by
  unfold chunk chunkByKey
  split
  · exact ⟨nofun, nofun⟩
  · constructor
    · rw [((follows_chunksFrom h hv bound 1).runs st).result]
      exact Finishes.chunks bound 1 _ _ hbound
    · rw [((follows_keyedChunksFrom h hv bound none).runs st).result]
      exact Finishes.keyedChunks bound none _ _ hbound

end

end Selection

end ActiveRow
