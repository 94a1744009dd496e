import ActiveRow.Timestamp

/-!
# Written moments

The RFC 3339 form in universal time: four digits of the year, or a sign and at least four outside
the years 0 to 9999, the fraction in the fewest of no, three, six or nine digits, and the offset
`+00:00`. A leap second is written as second sixty.
-/

namespace ActiveRow.Timestamp

/-- A number in at least `width` digits. -/
def padded (width n : Nat) : String :=
  let ds := Nat.repr n
  String.ofList (List.replicate (width - ds.length) '0') ++ ds

def yearText (year : Int) : String :=
  if 0 ≤ year ∧ year ≤ 9999 then padded 4 year.toNat
  else (if year < 0 then "-" else "+") ++ padded 4 year.natAbs

def fractionText (nanos : Nat) : String :=
  if nanos = 0 then ""
  else if nanos % 1000000 = 0 then "." ++ padded 3 (nanos / 1000000)
  else if nanos % 1000 = 0 then "." ++ padded 6 (nanos / 1000)
  else "." ++ padded 9 nanos

def written (t : Timestamp) : String :=
  let (year, month, day) := Calendar.date t.day
  let s := t.secondOfDay
  let leap := t.nanos / 1000000000
  yearText year ++ "-" ++ padded 2 month ++ "-" ++ padded 2 day ++ "T" ++
    padded 2 (s / 3600) ++ ":" ++ padded 2 (s / 60 % 60) ++ ":" ++ padded 2 (s % 60 + leap) ++
    fractionText (t.nanos % 1000000000) ++ "+00:00"

end ActiveRow.Timestamp
