import ActiveRow.Postgres.Encode

/-!
# Cells as values

The value of a cell from its binary form, by the type of its column. A cell that the type does not
allow has none.
-/

namespace ActiveRow.Postgres

/-- A number of exactly `width` bytes. -/
def decodeNat? (width : Nat) (bs : Bytes) : Option Nat :=
  if bs.length = width then some (BigEndian.toNat bs) else none

/-- A number of exactly `width` bytes in two's complement. -/
def decodeInt? (width : Nat) (bs : Bytes) : Option Int :=
  if bs.length = width then some (BigEndian.toInt bs) else none

def decodeText? (bs : Bytes) : Option String := String.fromUTF8? ⟨bs.toArray⟩

def intValue (n : Int) : Value := .int (Int64.ofInt n)

/-- The moment that is this many microseconds after the start of 2000. -/
def momentAfter? (micros : Int) : Option Timestamp :=
  Timestamp.ofUnix? (Timestamp.millennium + micros / 1000000) ((micros % 1000000).toNat * 1000)

/-- The value of a document in bytes. -/
def decodeDocument? (bs : Bytes) : Option Value := do
  pure (.ofJson (← Json.ofText? (← decodeText? bs)))

/-- The value of a cell that is not null. -/
def decodeScalar? (s : Scalar) (bs : Bytes) : Option Value :=
  match s with
  | .bool => (decodeNat? 1 bs).map fun n => .bool (n ≠ 0)
  | .char => (decodeInt? 1 bs).map intValue
  | .int2 => (decodeInt? 2 bs).map intValue
  | .int4 => (decodeInt? 4 bs).map intValue
  | .int8 => (decodeInt? 8 bs).map intValue
  | .oid => (decodeNat? 4 bs).map fun n => intValue n
  | .float4 => (decodeNat? 4 bs).map fun n => .float (Single.toDouble ⟨UInt32.ofNat n⟩)
  | .float8 => (decodeNat? 8 bs).map fun n => .float ⟨UInt64.ofNat n⟩
  | .numeric => (Numeric.decode? bs).map .float
  | .uuid => (decodeNat? 16 bs).map fun n => .uuid (.ofNat n)
  | .timestamptz | .timestamp => do pure (.timestamp (← momentAfter? (← decodeInt? 8 bs)))
  | .date => do pure (.timestamp (← momentAfter? ((← decodeInt? 4 bs) * 86400000000)))
  | .json => decodeDocument? bs
  | .jsonb =>
    match bs with
    | 1 :: rest => decodeDocument? rest
    | _ => none
  | .text | .varchar | .bpchar | .name | .unknown => (decodeText? bs).map .text
  | .other _ => none

/-- Whether cells of the type can be read at all. -/
def Kind.isReadable : Kind → Bool
  | .scalar (.other _) => false
  | .scalar _ => true
  | .array item =>
    [.bool, .int2, .int4, .int8, .float8, .uuid, .text, .varchar].contains item

/-! ### Arrays -/

/-- The sizes of dimensions multiplied, and what follows them. -/
def dimensions? : Nat → Nat → Bytes → Option (Nat × Bytes)
  | 0, total, bs => some (total, bs)
  | count + 1, total, bs => do
    let (size, bs) ← Numeric.number? 4 bs
    let (_, bs) ← Numeric.number? 4 bs
    if size < 0x80000000 ∧ total * size < 0x80000000 then dimensions? count (total * size) bs
    else none

/-- Exactly `count` items, each behind its length. -/
def items? (item : Scalar) : Nat → Bytes → Option (List Value)
  | 0, bs => if bs.isEmpty then some [] else none
  | count + 1, bs => do
    let (size, bs) ← Numeric.number? 4 bs
    if 0x80000000 ≤ size then pure (.null :: (← items? item count bs))
    else if size ≤ bs.length then
      pure ((← decodeScalar? item (bs.take size)) :: (← items? item count (bs.drop size)))
    else none

/-- An array of at most one dimension. -/
def decodeArray? (item : Scalar) (bs : Bytes) : Option Value := do
  let (count, bs) ← Numeric.number? 4 bs
  let (_, bs) ← Numeric.number? 4 bs
  let (_, bs) ← Numeric.number? 4 bs
  if count ≤ 1 then
    let (total, bs) ← dimensions? count 1 bs
    pure (.array (← items? item (if count = 0 then 0 else total) bs))
  else none

/-- The value of a cell. -/
def decode? (k : Kind) (cell : Option Bytes) : Option Value :=
  if k.isReadable then
    match k, cell with
    | _, none => some .null
    | .scalar s, some bs => decodeScalar? s bs
    | .array item, some bs => decodeArray? item bs
  else none

end ActiveRow.Postgres
