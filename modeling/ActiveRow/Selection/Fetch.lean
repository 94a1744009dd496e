import ActiveRow.Model.Storage
import ActiveRow.Page
import ActiveRow.Selection

/-!
# Fetching records

Operations that run a selection and give records, pages, columns or aggregates.
-/

namespace ActiveRow.Selection

variable {σ : Type}

/-! ### Records -/

/-- Loads relations one after the other. -/
def loadAll (s : Selection σ) (c : Connection σ) :
    List String → List Record → Action σ (List Record)
  | [], records => pure records
  | name :: rest, records => do
    let loader ← .ofExcept (s.loader? name)
    c.report (.loading s.model.table name records.length)
    s.loadAll c rest (← loader c name records)

/-- The records of rows, relations loaded. No rows, nothing to load. -/
def hydrate (s : Selection σ) (c : Connection σ) (rows : List Row) : Action σ Collection := do
  let records := rows.map s.model.hydrate
  if records.isEmpty then pure ⟨s.model, []⟩
  else pure ⟨s.model, ← s.loadAll c s.eager records⟩

def get (s : Selection σ) (c : Connection σ) : Action σ Collection := do
  s.hydrate c (← s.toQuery.get c)

def first? (s : Selection σ) (c : Connection σ) : Action σ (Option Record) := do
  pure (← (s.refine (·.take 1)).get c).first?

/-- The first record of this key. -/
def find? (s : Selection σ) (c : Connection σ) (key : Value) : Action σ (Option Record) :=
  (s.refine (·.whereEq (s.qualify s.model.primaryKey) key)).first? c

/-- The records whose key is one of `keys`. -/
def findMany (s : Selection σ) (c : Connection σ) (keys : List Value) : Action σ Collection :=
  (s.refine (·.filter .and (.among (s.qualify s.model.primaryKey) keys false))).get c

/-- The first record of this key, which must exist. -/
def find (s : Selection σ) (c : Connection σ) (key : Value) : Action σ Record := do
  match ← s.find? c key with
  | some r => pure r
  | none => throw (.notFound (.model s.model.table s.model.primaryKey key.plain))

/-- The first record, which must exist. -/
def first (s : Selection σ) (c : Connection σ) : Action σ Record := do
  match ← s.first? c with
  | some r => pure r
  | none => throw (.notFound (.row s.model.table))

/-! ### Columns and aggregates -/

def value? (s : Selection σ) (c : Connection σ) (column : String) : Action σ (Option Value) :=
  s.toQuery.value? c column

def pluck (s : Selection σ) (c : Connection σ) (column : String) : Action σ (List Value) :=
  s.toQuery.pluck c column

def exists? (s : Selection σ) (c : Connection σ) : Action σ Bool := s.toQuery.exists? c

def lacks (s : Selection σ) (c : Connection σ) : Action σ Bool := s.toQuery.lacks c

def count (s : Selection σ) (c : Connection σ) : Action σ UInt64 := s.toQuery.count c

def sum (s : Selection σ) (c : Connection σ) (column : String) : Action σ Double :=
  s.toQuery.sum c column

def avg? (s : Selection σ) (c : Connection σ) (column : String) : Action σ (Option Double) :=
  s.toQuery.avg? c column

def min? (s : Selection σ) (c : Connection σ) (column : String) : Action σ (Option Value) :=
  s.toQuery.min? c column

def max? (s : Selection σ) (c : Connection σ) (column : String) : Action σ (Option Value) :=
  s.toQuery.max? c column

/-! ### Pages -/

/-- Counts the records, then fetches one page of them. Pages count from one. -/
def paginate (s : Selection σ) (c : Connection σ) (perPage page : UInt64) : Action σ Page := do
  if perPage = 0 then throw (.validation .pageSize)
  let page := if page = 0 then 1 else page
  let total ← s.count c
  let data ← (s.refine (·.forPage page perPage)).get c
  c.report (.paginated s.model.table page perPage total data.size)
  pure (Page.ofData data total perPage page)

end ActiveRow.Selection
