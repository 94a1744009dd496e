import ActiveRow.Selection.Fetch

/-!
# Chunks

Feeding the records of a selection to a visitor, one statement per chunk: by offset, or by keys
beyond the last one seen. A chunk that is empty or short is the last; the visitor may stop earlier.
The number of chunks has a bound, `bound`, that the caller gives.
-/

namespace ActiveRow.Selection

variable {σ : Type}

/-- How a run over chunks ended. -/
inductive Ending where
  /-- After the last chunk. -/
  | complete
  /-- At the wish of the visitor. -/
  | stopped
  /-- At the bound. -/
  | unfinished
  deriving DecidableEq

/-- What follows a chunk of this size: the end, or `next`. -/
def proceed (goOn : Bool) (count size : UInt64) (next : Action σ Ending) : Action σ Ending :=
  if !goOn then pure .stopped else if count < size then pure .complete else next

/-! ### By offset -/

def chunksFrom (s : Selection σ) (c : Connection σ) (size : UInt64)
    (visit : Collection → Action σ Bool) : Nat → UInt64 → Action σ Ending
  | 0, _ => pure .unfinished
  | bound + 1, page => do
    let records ← (s.refine (·.forPage page size)).get c
    if records.isEmpty then pure .complete
    else do
      c.report (.chunk s.model.table page records.size)
      proceed (← visit records) (UInt64.ofNat records.size) size
        (s.chunksFrom c size visit bound (page + 1))

/-- Feeds pages of `size` records to `visit`. -/
def chunk (s : Selection σ) (c : Connection σ) (bound : Nat) (size : UInt64)
    (visit : Collection → Action σ Bool) : Action σ Ending :=
  if size = 0 then throw (.validation .chunkSize) else s.chunksFrom c size visit bound 1

/-! ### By key -/

/-- The selection of the first `size` records in the order of keys, beyond `last` if given. -/
def keyedPage (s : Selection σ) (size : UInt64) (last : Option Value) : Selection σ :=
  let key := s.qualify s.model.primaryKey
  s.refine fun q =>
    -- an offset would skip rows of every chunk anew
    let q := { (q.reorder.orderBy key .asc).take size with offset := none }
    match last with
    | some v => q.isolate.filter .and (.compare key ">" (.value v))
    | none => q

/-- The key of the last record, which the next chunk starts from. -/
def lastKey (s : Selection σ) (records : Collection) : Except Fault Value :=
  match records.last?.bind Record.knownKey? with
  | some key => .ok key
  | none => .error (.validation (.chunkKey s.model.primaryKey))

def keyedChunksFrom (s : Selection σ) (c : Connection σ) (size : UInt64)
    (visit : Collection → Action σ Bool) : Nat → Option Value → Action σ Ending
  | 0, _ => pure .unfinished
  | bound + 1, last => do
    let records ← (s.keyedPage size last).get c
    if records.isEmpty then pure .complete
    else do
      let key ← .ofExcept (s.lastKey records)
      c.report (.keyedChunk s.model.table records.size)
      proceed (← visit records) (UInt64.ofNat records.size) size
        (s.keyedChunksFrom c size visit bound (some key))

/-- Feeds runs of `size` records to `visit`, in the order of keys. -/
def chunkByKey (s : Selection σ) (c : Connection σ) (bound : Nat) (size : UInt64)
    (visit : Collection → Action σ Bool) : Action σ Ending :=
  if size = 0 then throw (.validation .chunkSize) else s.keyedChunksFrom c size visit bound none

end ActiveRow.Selection
