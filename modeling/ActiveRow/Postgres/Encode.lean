import ActiveRow.Binary.Single
import ActiveRow.Decimal.Fixed.Reading
import ActiveRow.Postgres.Kind
import ActiveRow.Postgres.Numeric
import ActiveRow.Timestamp.Reading
import ActiveRow.Value.Document

/-!
# Values as parameters

The binary form of a value for a parameter of a given type. Null has none. A value that the type
does not provide for is sent in the form of its own kind.
-/

namespace ActiveRow

-- powers are those of core, also beside other instances
attribute [local instance (high)] instPowNat

namespace Timestamp

/-- The first second of the year 2000. -/
def millennium : Int := 946684800

/-- The microseconds since 2000, cut toward zero. -/
def micros (t : Timestamp) : Int :=
  (((t.seconds - millennium) * 1000000000) + t.nanos).tdiv 1000

/-- The days since 2000. -/
def days (t : Timestamp) : Int := t.day - millennium / 86400

end Timestamp

namespace Postgres

/-- Why a value has no form for a type. -/
inductive Unencodable where
  /-- An integer or a length is beyond what its bytes hold. -/
  | outOfRange
  | integer
  | float
  | uuid
  | decimal
  | moment
  deriving DecidableEq

abbrev Bytes := List UInt8

/-- The bytes of a value, none for null, or why there are none. -/
abbrev Encoded := Except Unencodable (Option Bytes)

def sent (bs : Bytes) : Encoded := .ok (some bs)

def textBytes (s : String) : Bytes := s.toUTF8.toList

def ofOption (cause : Unencodable) : Option Bytes → Encoded
  | some bs => sent bs
  | none => .error cause

/-- An integer of `width` bytes in two's complement, when it fits. -/
def encodeWord (width : Nat) (n : Int) : Encoded :=
  if -(256 ^ width) ≤ 2 * n ∧ 2 * n < 256 ^ width then sent (BigEndian.signed width n)
  else .error .outOfRange

def encodeDouble (x : Double) : Encoded := sent (BigEndian.unsigned 8 x.bits.toNat)

def encodeSingle (x : Single) : Encoded := sent (BigEndian.unsigned 4 x.bits.toNat)

def encodeUuid (u : Uuid) : Encoded := sent (BigEndian.unsigned 16 u.number.toNat)

def encodeMoment (t : Timestamp) : Encoded := sent (BigEndian.signed 8 t.micros)

def encodeDate (t : Timestamp) : Encoded := sent (BigEndian.signed 4 t.days)

/-- A document as text; the second type of documents has a version in front. -/
def encodeDocument (j : Json) : Scalar → Encoded
  | .jsonb => sent (1 :: textBytes j.text)
  | _ => sent (textBytes j.text)

def encodeInt (n : Int64) : Scalar → Encoded
  | .int2 => encodeWord 2 n.toInt
  | .int4 => encodeWord 4 n.toInt
  | .oid =>
    if 0 ≤ n.toInt ∧ n.toInt < 0x100000000 then sent (BigEndian.unsigned 4 n.toInt.toNat)
    else .error .outOfRange
  | .float4 => encodeSingle (Single.ofInt n.toInt)
  | .float8 => encodeDouble (Double.ofInt n.toInt)
  | .numeric => sent (Numeric.encode (.ofInt64 n))
  | .bool => sent [if n = 0 then 0 else 1]
  | .text | .varchar | .bpchar | .name => sent (textBytes (Decimal.whole n.toInt))
  | .json => encodeDocument (.integer n.toInt) .json
  | .jsonb => encodeDocument (.integer n.toInt) .jsonb
  | _ => sent (BigEndian.signed 8 n.toInt)

/-- A float without a fraction is sent to integer types as an integer. -/
def encodeFloat (x : Double) (s : Scalar) : Encoded :=
  match s with
  | .float4 => encodeSingle (Single.ofDouble x)
  | .numeric => ofOption .decimal ((Decimal.Fixed.ofDouble? x).map Numeric.encode)
  | .int2 | .int4 | .int8 => if x.isWhole then encodeInt x.toInt64 s else encodeDouble x
  | .text | .varchar | .bpchar => sent (textBytes (Decimal.plain x))
  | .json | .jsonb => encodeDocument (if x.isFinite then .float x else .null) s
  | _ => encodeDouble x

/-- A text is read as what the type holds. -/
def encodeText (t : String) (s : Scalar) : Encoded :=
  match s with
  | .uuid =>
    match Uuid.ofText? t with
    | some u => encodeUuid u
    | none => .error .uuid
  | .json | .jsonb => encodeDocument ((Json.ofText? t).getD (.string t)).sorted s
  | .numeric => ofOption .decimal ((Decimal.Fixed.ofText? t.toList).map Numeric.encode)
  | .int2 | .int4 | .int8 =>
    match Decimal.int64? (Text.trimChars t.toList) with
    | some n => encodeInt n s
    | none => .error .integer
  | .float4 | .float8 =>
    match Decimal.double? (Text.trimChars t.toList) with
    | some x => encodeFloat x s
    | none => .error .float
  | .timestamptz =>
    match Timestamp.ofRfc3339? t.toList with
    | some m => encodeMoment m
    | none => .error .moment
  | .timestamp =>
    match Timestamp.ofParts? Timestamp.spacedPattern t.toList with
    | some m => encodeMoment m
    | none => .error .moment
  | .date =>
    match Timestamp.ofParts? Timestamp.datePattern t.toList with
    | some m => encodeDate m
    | none => .error .moment
  | _ => sent (textBytes t)

/-- A value for a type that is no array. -/
def encodeScalar (s : Scalar) : Value → Encoded
  | .null => .ok none
  | .bool b => sent [if b then 1 else 0]
  | .int n => encodeInt n s
  | .float x => encodeFloat x s
  | .text t => encodeText t s
  | .uuid u => if s = .uuid then encodeUuid u else sent (textBytes u.written)
  | .timestamp t =>
    match s with
    | .date => encodeDate t
    | .text | .varchar => sent (textBytes t.written)
    | _ => encodeMoment t
  | .array items => encodeDocument (Value.toJson (.array items)) s
  | .object fields => encodeDocument (Value.toJson (.object fields)) s

/-- The greatest length that four bytes with a sign hold. -/
def maxLength : Nat := 0x7FFFFFFF

/-- The form of a value as an item of an array, when its length fits. -/
def encodeItem (item : Scalar) (v : Value) : Encoded :=
  match encodeScalar item v with
  | .ok (some bs) => if bs.length ≤ maxLength then sent bs else .error .outOfRange
  | encoded => encoded

/-- An item behind its length; null has the length minus one. -/
def itemBytes : Option Bytes → Bytes
  | some bs => BigEndian.signed 4 bs.length ++ bs
  | none => BigEndian.signed 4 (-1)

/-- An array of one dimension that counts from one. -/
def arrayBytes (item : Scalar) (items : List (Option Bytes)) : Bytes :=
  BigEndian.signed 4 1 ++ BigEndian.signed 4 (if items.any Option.isNone then 1 else 0) ++
    BigEndian.unsigned 4 item.number ++ BigEndian.signed 4 items.length ++ BigEndian.signed 4 1 ++
    items.flatMap itemBytes

/-- The binary form of a value. -/
def encode (k : Kind) (v : Value) : Encoded :=
  match k, v with
  | .scalar s, v => encodeScalar s v
  | .array item, .array items =>
    if items.length ≤ maxLength then do
      pure (some (arrayBytes item (← items.mapM (encodeItem item))))
    else .error .outOfRange
  | .array item, v => encodeScalar (.other item.number) v

end Postgres

end ActiveRow
