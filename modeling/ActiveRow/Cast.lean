import ActiveRow.Timestamp.Reading
import ActiveRow.Value.Document

/-!
# Casts

A cast coerces a value to the kind that a column declares. Null is never coerced, and a value that
cannot be converted stays as it is.
-/

namespace ActiveRow

inductive Cast where
  | integer
  | float
  | boolean
  | string
  | json
  | datetime
  deriving DecidableEq

namespace Cast

/-- Booleans count as zero and one; floats and numerals lose their fraction. -/
def toInteger : Value → Value
  | .bool b => .int (if b then 1 else 0)
  | .float x => if x.isFinite then .int x.toInt64 else .float x
  | .text s =>
    let cs := Text.trimChars s.toList
    match Decimal.int64? cs with
    | some n => .int n
    | none =>
      match Decimal.double? cs with
      | some x => .int x.toInt64
      | none => .text s
  | v => v

def toFloat (v : Value) : Value :=
  match v.toNumber with
  | some x => .float x
  | none => v

/-- The words for true and false, in any case of letters. -/
def wordOf? (s : String) : Option Bool :=
  let w := Text.lower (Text.trim s)
  if w ∈ ["1", "true", "t", "yes", "on"] then some true
  else if w ∈ ["0", "false", "f", "no", "off", ""] then some false
  else none

/-- Numbers are true unless they are zero. -/
def toBoolean : Value → Value
  | .int n => .bool (n != 0)
  | .float x => .bool (!x.isZero)
  | .text s =>
    match wordOf? s with
    | some b => .bool b
    | none => .text s
  | v => v

def toText : Value → Value
  | .text s => .text s
  | v => .text v.plain

/-- A text is read as a document. -/
def toDocument : Value → Value
  | .text s =>
    match Json.ofText? s with
    | some j => .ofJson j
    | none => .text s
  | v => v

/-- Integers count seconds since 1970. -/
def toDatetime : Value → Value
  | .int n =>
    match Timestamp.ofUnix? n.toInt 0 with
    | some t => .timestamp t
    | none => .int n
  | .text s =>
    match Timestamp.ofText? s with
    | some t => .timestamp t
    | none => .text s
  | v => v

/-- Coerces a value that is not null. -/
def apply (c : Cast) (v : Value) : Value :=
  if v.isNull then v
  else match c with
    | integer => toInteger v
    | float => toFloat v
    | boolean => toBoolean v
    | string => toText v
    | json => toDocument v
    | datetime => toDatetime v

end Cast

end ActiveRow
