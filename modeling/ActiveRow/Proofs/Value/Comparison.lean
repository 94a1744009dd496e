import ActiveRow.Proofs.Binary.Integer
import ActiveRow.Value.Order

/-!
# The order of values

Every value compares equal to itself, and exchanging two values turns their comparison round.
Whether a comparison is passed on depends on numbers: two integers are compared exactly, an integer
and a float by the nearest double. So a float stands level with each of the integers that it is
nearest to, and these are not level with each other. Nothing else is in the way, at any depth of
arrays.

* `compare_swap`, `compare_self`.
* `composes_compare`: where no float is nearest to two integers, two comparisons give the third.
* `compare_order`: when values are totally ordered.
* `compare_not_transitive`: three numbers that are not.
-/

namespace ActiveRow.Value

-- powers are those of core, also beside other instances
attribute [local instance (high)] instPowNat

/-! ### Comparisons that give a third -/

/-- The comparisons of a first with a second and of that with a third give the first with the third,
when both are ascending. -/
def Composes (ab bc ac : Ordering) : Prop := ab ≠ .gt → bc ≠ .gt → ac = ab.then bc

namespace Composes

variable {ab bc ac ab' bc' ac' : Ordering}

theorem of_transCmp {α : Type} (cmp : α → α → Ordering) [Std.TransCmp cmp] (a b c : α) :
    Composes (cmp a b) (cmp b c) (cmp a c) := by
  intro hab hbc
  cases h : cmp a b with
  | gt => exact absurd h hab
  | lt =>
    cases h' : cmp b c with
    | gt => exact absurd h' hbc
    | lt => exact Std.TransCmp.lt_trans h h'
    | eq => exact Std.TransCmp.lt_of_lt_of_eq h h'
  | eq =>
    cases h' : cmp b c with
    | gt => exact absurd h' hbc
    | lt => exact Std.TransCmp.lt_of_eq_of_lt h h'
    | eq => exact Std.TransCmp.eq_trans h h'

/-- What is compared first decides, and what is compared next where that is level. -/
theorem then_ (h : Composes ab bc ac) (h' : Composes ab' bc' ac') :
    Composes (ab.then ab') (bc.then bc') (ac.then ac') := by
  intro hab hbc
  have hfirst : ac = ab.then bc := by
    refine h ?_ ?_
    · rintro rfl
      exact hab rfl
    · rintro rfl
      exact hbc rfl
  subst hfirst
  cases ab with
  | gt => exact absurd rfl hab
  | lt => rfl
  | eq =>
    cases bc with
    | gt => exact absurd rfl hbc
    | lt =>
      -- the next comparison of the first two is no more than level
      cases ab' with
      | gt => exact absurd rfl hab
      | lt => rfl
      | eq => rfl
    | eq => exact h' hab hbc

theorem ne_gt (h : Composes ab bc ac) (hab : ab ≠ .gt) (hbc : bc ≠ .gt) : ac ≠ .gt := by
  rw [h hab hbc]
  cases ab with
  | gt => exact absurd rfl hab
  | lt => exact Ordering.noConfusion
  | eq => exact hbc

/-- Three comparisons of integers, the third of which is level when both others are. -/
theorem of_le {a b c d e f : Int} (h : a ≤ b → c ≤ d → e ≤ f ∧ (e = f ↔ a = b ∧ c = d)) :
    Composes (Ord.compare a b) (Ord.compare c d) (Ord.compare e f) := by
  intro hab hcd
  rw [Int.compare_ne_gt] at hab hcd
  obtain ⟨hef, hlevel⟩ := h hab hcd
  by_cases heq : a = b ∧ c = d
  · rw [Int.compare_eq_eq.2 heq.1, Int.compare_eq_eq.2 heq.2, Int.compare_eq_eq.2 (hlevel.2 heq)]
    rfl
  · have hlt : e < f := by omega
    rw [Int.compare_eq_lt.2 hlt]
    by_cases hlt' : a < b
    · rw [Int.compare_eq_lt.2 hlt']
      rfl
    · rw [Int.compare_eq_eq.2 (by omega : a = b), Int.compare_eq_lt.2 (by omega : c < d)]
      rfl

/-- Two integers that are compared exactly with each other, and by keys with a third number. -/
theorem of_keys {m n km kn x : Int} (hle : m ≤ n → km ≤ kn) (hge : n ≤ m → kn ≤ km)
    (hlevel : km = x → kn = x → m = n) :
    Composes (Ord.compare m n) (Ord.compare kn x) (Ord.compare km x) ∧
      Composes (Ord.compare km x) (Ord.compare x kn) (Ord.compare m n) ∧
        Composes (Ord.compare x km) (Ord.compare m n) (Ord.compare x kn) :=
  ⟨of_le (by omega), of_le (by omega), of_le (by omega)⟩

end Composes

/-! ### Kinds -/

theorem compare_of_rank_ne {a b : Value} (h : a.rank ≠ b.rank) :
    compare a b = Ord.compare a.rank b.rank := by
  cases a <;> cases b <;> first | rfl | exact absurd rfl h

theorem rank_le {a b : Value} (h : compare a b ≠ .gt) : a.rank ≤ b.rank := by
  by_cases hr : a.rank = b.rank
  · exact Nat.le_of_eq hr
  · rw [compare_of_rank_ne hr] at h
    exact Nat.compare_ne_gt.1 h

theorem compare_of_rank_lt {a b : Value} (h : a.rank < b.rank) : compare a b = .lt := by
  rw [compare_of_rank_ne (Nat.ne_of_lt h)]
  exact Nat.compare_eq_lt.2 h

/-- Values of different kinds are in the order of the kinds. -/
theorem composes_of_rank_ne {a b c : Value} (h : ¬(a.rank = b.rank ∧ b.rank = c.rank)) :
    Composes (compare a b) (compare b c) (compare a c) := by
  intro hab hbc
  have hle := rank_le hab
  have hle' := rank_le hbc
  rw [compare_of_rank_lt (by omega : a.rank < c.rank)]
  by_cases hlt : a.rank < b.rank
  · rw [compare_of_rank_lt hlt]
    rfl
  · rw [compare_of_rank_lt (by omega : b.rank < c.rank)]
    cases h' : compare a b with
    | gt => exact absurd h' hab
    | lt => rfl
    | eq => rfl

/-- Two values at one place in the order of kinds. -/
inductive Alike : Value → Value → Prop
  | null : Alike null null
  | bool (a b : Bool) : Alike (bool a) (bool b)
  | ints (a b : Int64) : Alike (int a) (int b)
  | intFloat (a : Int64) (b : Double) : Alike (int a) (float b)
  | floatInt (a : Double) (b : Int64) : Alike (float a) (int b)
  | floats (a b : Double) : Alike (float a) (float b)
  | text (a b : String) : Alike (text a) (text b)
  | uuid (a b : Uuid) : Alike (uuid a) (uuid b)
  | timestamp (a b : Timestamp) : Alike (timestamp a) (timestamp b)
  | array (as bs : List Value) : Alike (array as) (array bs)
  | object (l m : List (String × Value)) : Alike (object l) (object m)

theorem alike_of_rank_eq {a b : Value} (h : a.rank = b.rank) : Alike a b := by
  cases a <;> cases b <;> first | constructor | cases h

theorem of_rank_array {as : List Value} {b : Value} (h : (array as).rank = b.rank) :
    ∃ bs, b = array bs := by
  cases alike_of_rank_eq h with
  | array as bs => exact ⟨bs, rfl⟩

/-! ### Exchanging two values -/

/-- Whether a value is an array. -/
def isArray : Value → Bool
  | array _ => true
  | _ => false

theorem compare_swap_of_alike {a b : Value} (h : Alike a b) (ha : a.isArray = false) :
    compare b a = (compare a b).swap := by
  have swapped {α : Type} [Ord α] [Std.OrientedOrd α] (x y : α) :
      Ord.compare y x = (Ord.compare x y).swap := Std.OrientedCmp.eq_swap
  cases h with
  | null => rfl
  | bool a b => exact swapped a b
  | ints a b => exact swapped a.toInt b.toInt
  | intFloat a b => exact swapped (Double.ofInt a.toInt).totalKey b.totalKey
  | floatInt a b => exact swapped a.totalKey (Double.ofInt b.toInt).totalKey
  | floats a b => exact swapped a.totalKey b.totalKey
  | text a b => exact swapped a b
  | uuid a b => exact swapped a.number.toNat b.number.toNat
  | timestamp a b =>
    simp only [compare, Timestamp.compare, Ordering.swap_then, Int.compare_swap, Nat.compare_swap]
  | array as bs => cases ha
  | object l m => exact swapped l.length m.length

mutual

/-- **Exchanging two values turns their comparison round.** -/
theorem compare_swap : ∀ a b : Value, compare b a = (compare a b).swap
  | a, b => by
    by_cases h : a.rank = b.rank
    · cases a with
      | array as =>
        obtain ⟨bs, rfl⟩ := of_rank_array h
        simpa only [compare] using compareItems_swap as bs
      | _ => exact compare_swap_of_alike (alike_of_rank_eq h) rfl
    · rw [compare_of_rank_ne h, compare_of_rank_ne (Ne.symm h), Nat.compare_swap]

theorem compareItems_swap : ∀ as bs : List Value,
    compareItems bs as = (compareItems as bs).swap
  | [], [] => rfl
  | [], _ :: _ => rfl
  | _ :: _, [] => rfl
  | a :: as, b :: bs => by
    rw [compareItems, compareItems, compare_swap a b, compareItems_swap as bs,
      Ordering.swap_then]

end

theorem compare_self (a : Value) : compare a a = .eq := by
  have h := compare_swap a a
  cases hc : compare a a with
  | eq => rfl
  | lt => simp [hc] at h
  | gt => simp [hc] at h

/-! ### The numbers in a value -/

variable (ints : Int64 → Prop) (floats : Double → Prop)

mutual

/-- Whether the numbers of a value, at any depth of arrays, are among these. The members of objects
do not count, since only the sizes of objects are compared. -/
def NumbersIn : Value → Prop
  | int n => ints n
  | float x => floats x
  | array items => ItemsNumbersIn items
  | _ => True

def ItemsNumbersIn : List Value → Prop
  | [] => True
  | v :: rest => NumbersIn v ∧ ItemsNumbersIn rest

end

/-- No float is nearest to two of the integers. -/
def Apart : Prop :=
  ∀ m n, ints m → ints n → floats (Double.ofInt m.toInt) →
    Double.ofInt m.toInt = Double.ofInt n.toInt → m = n

variable {ints floats}

/-- Two integers and a float that is not nearest to both. -/
theorem Apart.of_keys (h : Apart ints floats) {m n : Int64} {x : Double} (hm : ints m)
    (hn : ints n) (hx : floats x) :
    Composes (compare (int m) (int n)) (compare (int n) (float x)) (compare (int m) (float x)) ∧
      Composes (compare (int m) (float x)) (compare (float x) (int n)) (compare (int m) (int n)) ∧
        Composes (compare (float x) (int m)) (compare (int m) (int n))
          (compare (float x) (int n)) := by
  refine Composes.of_keys Double.totalKey_ofInt_mono Double.totalKey_ofInt_mono fun hkm hkn => ?_
  obtain rfl : Double.ofInt m.toInt = x :=
    (Double.compareTotal_eq_iff _ _).1 (Int.compare_eq_eq.2 hkm)
  have hsame : Double.ofInt n.toInt = Double.ofInt m.toInt :=
    (Double.compareTotal_eq_iff _ _).1 (Int.compare_eq_eq.2 hkn)
  rw [h m n hm hn hx hsame.symm]

theorem composes_of_alike (h : Apart ints floats) {a b c : Value} (hab : Alike a b)
    (hbc : Alike b c) (ha : NumbersIn ints floats a) (hb : NumbersIn ints floats b)
    (hc : NumbersIn ints floats c) (harray : a.isArray = false) :
    Composes (compare a b) (compare b c) (compare a c) := by
  have keys (x y z : Double) :=
    Composes.of_transCmp Ord.compare x.totalKey y.totalKey z.totalKey
  cases hab with
  | null =>
    cases hbc
    exact fun _ _ => rfl
  | bool a b =>
    cases hbc with
    | bool _ c => exact .of_transCmp Ord.compare a b c
  | ints a b =>
    cases hbc with
    | ints _ c => exact .of_transCmp Ord.compare a.toInt b.toInt c.toInt
    | intFloat _ c => exact (h.of_keys ha hb hc).1
  | intFloat a b =>
    cases hbc with
    | floatInt _ c => exact (h.of_keys ha hc hb).2.1
    | floats _ c => exact keys _ b c
  | floatInt a b =>
    cases hbc with
    | ints _ c => exact (h.of_keys hb hc ha).2.2
    | intFloat _ c => exact keys a _ c
  | floats a b =>
    cases hbc with
    | floatInt _ c => exact keys a b _
    | floats _ c => exact keys a b c
  | text a b =>
    cases hbc with
    | text _ c => exact .of_transCmp Ord.compare a b c
  | uuid a b =>
    cases hbc with
    | uuid _ c => exact .of_transCmp Ord.compare a.number.toNat b.number.toNat c.number.toNat
  | timestamp a b =>
    cases hbc with
    | timestamp _ c =>
      exact (Composes.of_transCmp Ord.compare a.seconds b.seconds c.seconds).then_
        (.of_transCmp Ord.compare a.nanos b.nanos c.nanos)
  | array as bs => cases harray
  | object l m =>
    cases hbc with
    | object _ n => exact .of_transCmp Ord.compare l.length m.length n.length

mutual

/-- **Two comparisons give the third** among values whose numbers are apart. -/
theorem composes_compare (h : Apart ints floats) : ∀ a b c : Value, NumbersIn ints floats a →
    NumbersIn ints floats b → NumbersIn ints floats c →
      Composes (compare a b) (compare b c) (compare a c)
  | a, b, c, ha, hb, hc => by
    by_cases hr : a.rank = b.rank ∧ b.rank = c.rank
    · cases a with
      | array as =>
        obtain ⟨bs, rfl⟩ := of_rank_array hr.1
        obtain ⟨cs, rfl⟩ := of_rank_array hr.2
        simpa only [compare] using composes_compareItems h as bs cs ha hb hc
      | _ =>
        exact composes_of_alike h (alike_of_rank_eq hr.1) (alike_of_rank_eq hr.2) ha hb hc rfl
    · exact composes_of_rank_ne hr

theorem composes_compareItems (h : Apart ints floats) : ∀ as bs cs : List Value,
    ItemsNumbersIn ints floats as → ItemsNumbersIn ints floats bs → ItemsNumbersIn ints floats cs →
      Composes (compareItems as bs) (compareItems bs cs) (compareItems as cs)
  | [], [], _, _, _, _ => fun _ _ => rfl
  | [], _ :: _, [], _, _, _ => fun _ hbc => absurd rfl hbc
  | [], _ :: _, _ :: _, _, _, _ => fun _ _ => rfl
  | _ :: _, [], _, _, _, _ => fun hab _ => absurd rfl hab
  | _ :: _, _ :: _, [], _, _, _ => fun _ hbc => absurd rfl hbc
  | a :: as, b :: bs, c :: cs, ha, hb, hc =>
    (composes_compare h a b c ha.1 hb.1 hc.1).then_
      (composes_compareItems h as bs cs ha.2 hb.2 hc.2)

end

/-! ### When values are totally ordered -/

/-- A float is level with an integer that it is nearest to. -/
theorem compare_nearest (n : Int64) :
    compare (int n) (float (Double.ofInt n.toInt)) = .eq ∧
      compare (float (Double.ofInt n.toInt)) (int n) = .eq :=
  ⟨Int.compare_eq_eq.2 rfl, Int.compare_eq_eq.2 rfl⟩

/-- Where comparisons are passed on, no float is nearest to two integers. -/
theorem apart_of_trans (h : ∀ a b c, NumbersIn ints floats a → NumbersIn ints floats b →
    NumbersIn ints floats c → compare a b ≠ .gt → compare b c ≠ .gt → compare a c ≠ .gt) :
    Apart ints floats := by
  intro m n hm hn hx hsame
  have hle : ∀ {m n : Int64}, ints m → ints n → floats (Double.ofInt m.toInt) →
      Double.ofInt m.toInt = Double.ofInt n.toInt → m.toInt ≤ n.toInt := by
    intro m n hm hn hx hsame
    have hfirst : compare (int m) (float (Double.ofInt m.toInt)) ≠ .gt := by
      rw [(compare_nearest m).1]
      exact Ordering.noConfusion
    have hnext : compare (float (Double.ofInt m.toInt)) (int n) ≠ .gt := by
      rw [hsame, (compare_nearest n).2]
      exact Ordering.noConfusion
    exact Int.compare_ne_gt.1
      (h (int m) (float (Double.ofInt m.toInt)) (int n) hm hx hn hfirst hnext)
  exact Int64.toInt_inj.1 (Int.le_antisymm (hle hm hn hx hsame) (hle hn hm (hsame ▸ hx) hsame.symm))

/-- **When values are totally ordered.** Every value compares equal to itself, and exchanging two
values turns their comparison round. Among values whose numbers, at any depth of arrays, are taken
from some integers and some floats, comparisons are passed on exactly when none of the floats is
nearest to two of the integers. Integers up to `2 ^ 53` are apart, whatever the floats. -/
theorem compare_order (ints : Int64 → Prop) (floats : Double → Prop) :
    (∀ a, compare a a = .eq) ∧
    (∀ a b, compare b a = (compare a b).swap) ∧
    ((∀ a b c, NumbersIn ints floats a → NumbersIn ints floats b → NumbersIn ints floats c →
      compare a b ≠ .gt → compare b c ≠ .gt → compare a c ≠ .gt) ↔ Apart ints floats) ∧
    ((∀ n, ints n → n.toInt.natAbs ≤ 2 ^ (Binary.Format.double.fractionBits + 1)) →
      Apart ints floats) := by
  refine ⟨compare_self, compare_swap, ⟨apart_of_trans, ?_⟩, ?_⟩
  · intro h a b c ha hb hc hab hbc
    exact (composes_compare h a b c ha hb hc).ne_gt hab hbc
  · intro hsmall m n hm hn _ hsame
    exact Int64.toInt_inj.1 (Double.ofInt_inj (hsmall m hm) (hsmall n hn) hsame)

/-- **Three numbers that are not in order**: the float is level with both integers, and the first of
these is the greater one. -/
theorem compare_not_transitive :
    let above : Value := int 9007199254740993
    let nearest : Value := float ⟨0x4340000000000000⟩
    let below : Value := int 9007199254740992
    compare above nearest = .eq ∧ compare nearest below = .eq ∧ compare above below = .gt := by
  decide +kernel

end ActiveRow.Value
