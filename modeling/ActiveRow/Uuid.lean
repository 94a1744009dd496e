import ActiveRow.Text.Hex

/-!
# Universally unique identifiers

An identifier is a number of 128 bits, written as 32 lower-case hexadecimal digits in five groups.
It is read with or without the hyphens; the hyphenated form may stand in braces or behind
`urn:uuid:`, in any letter case.
-/

namespace ActiveRow

structure Uuid where
  number : BitVec 128
  deriving DecidableEq

namespace Uuid

def ofNat (n : Nat) : Uuid := ⟨BitVec.ofNat 128 n⟩

/-- The order of the sixteen bytes. -/
def compare (a b : Uuid) : Ordering := Ord.compare a.number.toNat b.number.toNat

theorem compare_eq_iff (a b : Uuid) : a.compare b = .eq ↔ a = b := by
  cases a; cases b
  simp [compare, BitVec.toNat_inj]

/-- The digits with hyphens after the eighth, twelfth, sixteenth and twentieth. -/
def written (u : Uuid) : String :=
  let ds := Hex.digits 32 u.number.toNat
  let group (start count : Nat) := (ds.drop start).take count
  String.ofList (group 0 8 ++ '-' :: group 8 4 ++ '-' :: group 12 4 ++ '-' :: group 16 4 ++
    '-' :: group 20 12)

/-- Reads exactly 32 digits. -/
def ofDigits? (cs : List Char) : Option Uuid :=
  if cs.length = 32 then (Hex.read? cs).map ofNat else none

/-- Reads the hyphenated form. -/
def ofGroups? (cs : List Char) : Option Uuid :=
  if cs.length = 36 ∧ [8, 13, 18, 23].all fun i => cs[i]? = some '-' then
    ofDigits? (cs.take 8 ++ (cs.drop 9).take 4 ++ (cs.drop 14).take 4 ++ (cs.drop 19).take 4 ++
      cs.drop 24)
  else none

/-- Reads any of the accepted forms. -/
def ofText? (s : String) : Option Uuid :=
  let cs := s.toList
  let urn := ['u', 'r', 'n', ':', 'u', 'u', 'i', 'd', ':']
  if cs.length = 32 then ofDigits? cs
  else if cs.length = 38 ∧ cs.head? = some '\x7b' ∧ cs.getLast? = some '\x7d' then
    ofGroups? (cs.drop 1).dropLast
  else if cs.length = 45 ∧ (cs.take 9).map Char.toLower = urn then ofGroups? (cs.drop 9)
  else ofGroups? cs

end Uuid

end ActiveRow
