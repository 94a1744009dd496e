import ActiveRow.Timestamp
import ActiveRow.Text.Blank
import ActiveRow.Decimal.Literal

/-!
# Reading moments

Two ways to write a moment are read. The RFC 3339 form has fields of fixed width and an offset. A
pattern is a list of fields and literals: its numbers may have leading blanks and fewer digits, a
year may be signed, and the moment is taken to be in universal time.
-/

namespace ActiveRow.Timestamp

open Decimal (isDigit digitsValue)

-- powers are those of core, also beside other instances
attribute [local instance (high)] instPowNat

/-- Reads between `least` and `most` digits. -/
def digits? (least most : Nat) (cs : List Char) : Option (Nat × List Char) :=
  let ds := (cs.take most).takeWhile isDigit
  if ds.length < least then none else some (digitsValue ds, cs.drop ds.length)

/-- Reads one or more digits of a fraction of a second; those past the ninth are dropped. -/
def nanos? (cs : List Char) : Option (Nat × List Char) := do
  let (n, rest) ← digits? 1 9 cs
  pure (n * 10 ^ (9 - (cs.length - rest.length)), rest.dropWhile isDigit)

def literal? (c : Char) : List Char → Option (List Char)
  | [] => none
  | d :: rest => if d = c then some rest else none

/-- What is known of a moment while it is read. -/
structure Fields where
  year : Int := 0
  month : Nat := 1
  day : Nat := 1
  hour : Nat := 0
  minute : Nat := 0
  second : Nat := 0
  nanos : Nat := 0

/-- The moment of fields in local time that are `offset` seconds ahead of universal time. -/
def Fields.moment? (f : Fields) (offset : Int) : Option Timestamp := do
  let day ← Calendar.day? f.year f.month f.day
  if 24 ≤ f.hour ∨ 60 ≤ f.minute ∨ 60 < f.second then none
  let leap := if f.second = 60 then 1 else 0
  ofUnix? (day * 86400 + (f.hour * 3600 + f.minute * 60 + f.second - leap : Nat) - offset)
    (f.nanos + leap * 1000000000)

/-! ### RFC 3339 -/

/-- The offset: `Z`, or a sign, two digits of hours, a colon and two digits of minutes. -/
def offset? : List Char → Option (Int × List Char)
  | [] => none
  | c :: rest =>
    if c = 'Z' ∨ c = 'z' then some (0, rest)
    else if c = '+' ∨ c = '-' ∨ c = '\u2212' then do
      let (hours, rest) ← digits? 2 2 rest
      let rest ← literal? ':' rest
      let (minutes, rest) ← digits? 2 2 rest
      if 24 ≤ hours ∨ 60 ≤ minutes then none
      let seconds : Int := (hours * 3600 + minutes * 60 : Nat)
      pure (if c = '+' then seconds else -seconds, rest)
    else none

/-- Reads the RFC 3339 form. -/
def ofRfc3339? (cs : List Char) : Option Timestamp := do
  let (year, cs) ← digits? 4 4 cs
  let cs ← literal? '-' cs
  let (month, cs) ← digits? 2 2 cs
  let cs ← literal? '-' cs
  let (day, cs) ← digits? 2 2 cs
  let cs ← match cs with
    | c :: r => if c = 'T' ∨ c = 't' ∨ c = ' ' then some r else none
    | [] => none
  let (hour, cs) ← digits? 2 2 cs
  let cs ← literal? ':' cs
  let (minute, cs) ← digits? 2 2 cs
  let cs ← literal? ':' cs
  let (second, cs) ← digits? 2 2 cs
  let (nanos, cs) ← match cs with
    | '.' :: r => nanos? r
    | r => some (0, r)
  let (offset, cs) ← offset? cs
  if cs ≠ [] then none
  Fields.moment? { year, month, day, hour, minute, second, nanos } offset

/-! ### Patterns -/

/-- A part of a pattern. A fraction may be absent, a space stands for any run of blanks. -/
inductive Part where
  | year
  | month
  | day
  | hour
  | minute
  | second
  | fraction
  | space
  | literal (c : Char)

/-- Reads a number after blanks. -/
def number? (cs : List Char) : Option (Nat × List Char) := digits? 1 2 (Text.trimStart cs)

/-- Reads a year after blanks: four digits at most unless it is signed. -/
def year? (cs : List Char) : Option (Int × List Char) :=
  match Text.trimStart cs with
  | '-' :: r => (digits? 1 r.length r).map fun (n, rest) => (-(n : Int), rest)
  | '+' :: r => (digits? 1 r.length r).map fun (n, rest) => ((n : Int), rest)
  | r => (digits? 1 4 r).map fun (n, rest) => ((n : Int), rest)

def Part.read? (f : Fields) (cs : List Char) : Part → Option (Fields × List Char)
  | .year => (year? cs).map fun (n, r) => ({ f with year := n }, r)
  | .month => (number? cs).map fun (n, r) => ({ f with month := n }, r)
  | .day => (number? cs).map fun (n, r) => ({ f with day := n }, r)
  | .hour => (number? cs).map fun (n, r) => ({ f with hour := n }, r)
  | .minute => (number? cs).map fun (n, r) => ({ f with minute := n }, r)
  | .second => (number? cs).map fun (n, r) => ({ f with second := n }, r)
  | .fraction => match cs with
    | '.' :: r => (nanos? r).map fun (n, rest) => ({ f with nanos := n }, rest)
    | r => some (f, r)
  | .space => some (f, Text.trimStart cs)
  | .literal c => (literal? c cs).map fun r => (f, r)

/-- Reads the parts of a pattern in turn, up to the end of the text. -/
def ofParts? (parts : List Part) (cs : List Char) : Option Timestamp := do
  let (f, rest) ← parts.foldlM (fun (s : Fields × List Char) p => p.read? s.1 s.2) ({}, cs)
  if rest ≠ [] then none
  f.moment? 0

/-- Year, month and day. -/
def datePattern : List Part := [.year, .literal '-', .month, .literal '-', .day]

/-- Hour, minute, second and a fraction. -/
def timePattern : List Part :=
  [.hour, .literal ':', .minute, .literal ':', .second, .fraction]

/-- A date and a time of day with blanks between. -/
def spacedPattern : List Part := datePattern ++ .space :: timePattern

/-- A date and a time of day with a `T` between. -/
def joinedPattern : List Part := datePattern ++ .literal 'T' :: timePattern

/-- Any of the accepted forms, blanks around it aside: RFC 3339, then the patterns with a time,
then a date alone. -/
def ofText? (s : String) : Option Timestamp :=
  let cs := Text.trimChars s.toList
  (ofRfc3339? cs).or <| (ofParts? spacedPattern cs).or <|
    (ofParts? joinedPattern cs).or <| ofParts? datePattern cs

end ActiveRow.Timestamp
