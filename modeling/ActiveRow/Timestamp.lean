import ActiveRow.Calendar

/-!
# Moments

A moment is a count of seconds since the start of 1970 in universal time and a count of
nanoseconds, which may exceed a second by a leap second. Seconds stay within the supported years.

* `compare_eq_iff`: moments that compare equal are equal.
-/

namespace ActiveRow

structure Timestamp where
  seconds : Int
  nanos : Nat
  seconds_range : -8334601228800 ≤ seconds ∧ seconds ≤ 8210266876799
  nanos_lt : nanos < 2000000000
  deriving DecidableEq

namespace Timestamp

/-- The moment of these counts, when they are in range. -/
def ofUnix? (seconds : Int) (nanos : Nat) : Option Timestamp :=
  if h : (-8334601228800 ≤ seconds ∧ seconds ≤ 8210266876799) ∧ nanos < 2000000000 then
    some ⟨seconds, nanos, h.1, h.2⟩
  else none

def epoch : Timestamp := ⟨0, 0, by decide, by decide⟩

instance : Inhabited Timestamp := ⟨epoch⟩

/-- Seconds decide, then nanoseconds. -/
def compare (a b : Timestamp) : Ordering :=
  (Ord.compare a.seconds b.seconds).then (Ord.compare a.nanos b.nanos)

theorem compare_eq_iff (a b : Timestamp) : a.compare b = .eq ↔ a = b := by
  cases a; cases b
  simp [compare, Ordering.then_eq_eq]

/-- The day number of a moment. -/
def day (t : Timestamp) : Int := t.seconds / 86400

/-- The second of the day. -/
def secondOfDay (t : Timestamp) : Nat := (t.seconds % 86400).toNat

end Timestamp

end ActiveRow
