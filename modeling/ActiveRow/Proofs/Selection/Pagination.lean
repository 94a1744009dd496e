import Mathlib.Order.Bounds.Defs
import ActiveRow.Proofs.Selection.OffsetChunks

/-!
# Pages of a result

A page tells its place in a result: the numbers of its first and last record, and of the last page.
They are reckoned apart from the offset at which the statement of the page starts, each time with
counts that stay at the largest one. A page that is in the result and holds the records that belong
on it is in its place, without any count being cut off; no other page has a count that wraps either.

* `isLeast_last`: the last page is the first one that reaches the end.
* `Filled.inPlace`: a page with its records is in its place.
* `counted_ofData`: the positions of any page at all.
* `paginate_eq_ok`: which page a selection gives, and the statement that its records come from.
* `pages_tile`: all of it.
-/

namespace ActiveRow

namespace Page

variable {data : Collection} {total perPage number : UInt64}

/-! ### The last page -/

theorem toNat_lastPage (hper : perPage ≠ 0) :
    (lastPage total perPage).toNat = (total.toNat + perPage.toNat - 1) / perPage.toNat := by
  have hpos := Word.toNat_pos hper
  have htotal := total.toNat_lt
  have hle : (total.toNat + perPage.toNat - 1) / perPage.toNat ≤ total.toNat := by
    rw [Nat.div_le_iff_le_mul_add_pred hpos]
    have hmul : total.toNat ≤ perPage.toNat * total.toNat := Nat.le_mul_of_pos_left _ hpos
    omega
  rw [lastPage, if_neg hper, UInt64.toNat_ofNat']
  exact Nat.mod_eq_of_lt (lt_of_le_of_lt hle htotal)

theorem lastPage_le_iff (hper : perPage ≠ 0) {n : Nat} :
    (lastPage total perPage).toNat ≤ n ↔ total.toNat ≤ n * perPage.toNat := by
  have hpos := Word.toNat_pos hper
  rw [toNat_lastPage hper, Nat.div_le_iff_le_mul_add_pred hpos, Nat.mul_comm perPage.toNat]
  omega

/-- **The last page** is the first one that reaches the end of the result. -/
theorem isLeast_last (hper : perPage ≠ 0) :
    IsLeast {n : Nat | total.toNat ≤ n * perPage.toNat} (lastPage total perPage).toNat :=
  ⟨(lastPage_le_iff hper).1 le_rfl, fun _ hn => (lastPage_le_iff hper).2 hn⟩

/-! ### Positions -/

theorem toNat_startOf : (startOf perPage number).toNat =
    min ((number.toNat - 1) * perPage.toNat + 1) Word.maxCount := by
  rw [startOf, Word.toNat_saturate]
  omega

/-- The positions of a page are positions of its records, or the largest count; a page has none
exactly when it is empty. -/
structure Counted (p : Page) : Prop where
  start_eq_zero_iff : p.start = 0 ↔ p.isEmpty = true
  stop_eq_zero_iff : p.stop = 0 ↔ p.isEmpty = true
  start_le_stop : p.start ≤ p.stop
  start_eq : p.isEmpty = false →
    p.start.toNat = min ((p.number.toNat - 1) * p.perPage.toNat + 1) Word.maxCount
  stop_eq : p.isEmpty = false →
    p.stop.toNat = min (p.start.toNat + (p.data.size - 1)) Word.maxCount

/-- **The positions of any page** do not wrap. -/
theorem counted_ofData (data : Collection) (total perPage number : UInt64) :
    (ofData data total perPage number).Counted := by
  cases hempty : data.isEmpty with
  | true =>
    have hstart : (ofData data total perPage number).start = 0 := if_pos hempty
    have hstop : (ofData data total perPage number).stop = 0 := if_pos hempty
    have hpage : (ofData data total perPage number).isEmpty = true := hempty
    have hnone : ¬(ofData data total perPage number).isEmpty = false := by simp [hpage]
    have hle :
        (ofData data total perPage number).start ≤ (ofData data total perPage number).stop := by
      rw [hstart, hstop]
      exact UInt64.le_refl 0
    exact ⟨by simp [hstart, hpage], by simp [hstop, hpage], hle, fun h => absurd h hnone,
      fun h => absurd h hnone⟩
  | false =>
    have hif : ¬data.isEmpty = true := by simp [hempty]
    have hpage : (ofData data total perPage number).isEmpty = false := hempty
    have hstart : (ofData data total perPage number).start.toNat =
        min ((number.toNat - 1) * perPage.toNat + 1) Word.maxCount := by
      rw [← toNat_startOf]
      exact congrArg UInt64.toNat (if_neg hif)
    have hstop : (ofData data total perPage number).stop.toNat =
        min ((ofData data total perPage number).start.toNat + (data.size - 1)) Word.maxCount := by
      rw [← Word.toNat_saturate]
      simp only [ofData, if_neg hif]
    have hmax : Word.maxCount = 0xFFFFFFFFFFFFFFFF := rfl
    refine ⟨?_, ?_, ?_, fun _ => hstart, fun _ => hstop⟩
    · rw [← UInt64.toNat_inj, hpage, UInt64.toNat_zero]
      simp only [Bool.false_eq_true, iff_false]
      omega
    · rw [← UInt64.toNat_inj, hpage, UInt64.toNat_zero]
      simp only [Bool.false_eq_true, iff_false]
      omega
    · rw [UInt64.le_iff_toNat_le]
      omega

/-! ### Pages in their place -/

/-- A page is one of the pages of its result, and holds as many records as a page has, or as are
left for it. -/
structure Filled (p : Page) : Prop where
  one_le : 1 ≤ p.number
  le_last : p.number ≤ p.last
  size_eq : p.data.size =
    min p.perPage.toNat (p.total.toNat - (p.number.toNat - 1) * p.perPage.toNat)

/-- A page is in its place: its positions are those of its records in the whole result, and join
those of its neighbours. -/
structure InPlace (p : Page) : Prop where
  /-- No count on the way to the positions is cut off. -/
  unsaturated :
    (p.number.toNat - 1) * p.perPage.toNat + 1 + (p.data.size - 1) ≤ Word.maxCount
  /-- The first record is the first one behind the offset of the page's statement. -/
  start_eq : p.start.toNat = (Query.pageOffset p.number p.perPage).toNat + 1
  statement : ∀ {σ : Type} (s : Selection σ) (d : Dialect),
    s.pageStatement d p.perPage p.number =
      (s.toQuery.entire.selectStatement d).map
        (Statement.within p.perPage.toNat (p.start.toNat - 1))
  stop_eq : p.stop.toNat = min (p.number.toNat * p.perPage.toNat) p.total.toNat
  next : ∀ data, (ofData data p.total p.perPage (p.number + 1)).Filled →
    (ofData data p.total p.perPage (p.number + 1)).start.toNat = p.stop.toNat + 1
  first : p.number = 1 → p.start = 1
  last : p.number = p.last → p.stop = p.total
  more_iff : p.hasMorePages = true ↔ p.stop < p.total

namespace Filled

variable (h : (ofData data total perPage number).Filled)

include h

theorem perPage_ne_zero : perPage ≠ 0 := by
  rintro rfl
  have hlast : lastPage total 0 = 0 := if_pos rfl
  have hone : 1 ≤ number := h.one_le
  have hle : number ≤ lastPage total 0 := h.le_last
  rw [hlast] at hle
  exact absurd (UInt64.le_trans hone hle) (by decide)

theorem one_le_toNat : 1 ≤ number.toNat := UInt64.le_iff_toNat_le.1 h.one_le

/-- The result goes on behind the pages before. -/
theorem before_lt : (number.toNat - 1) * perPage.toNat < total.toNat := by
  by_contra hle
  have hlast : (lastPage total perPage).toNat ≤ number.toNat - 1 :=
    (lastPage_le_iff h.perPage_ne_zero).2 (Nat.le_of_not_lt hle)
  have hnumber : number.toNat ≤ (lastPage total perPage).toNat :=
    UInt64.le_iff_toNat_le.1 h.le_last
  have hone := h.one_le_toNat
  omega

theorem isEmpty_eq : data.isEmpty = false := by
  have hsize : data.size = min perPage.toNat (total.toNat - (number.toNat - 1) * perPage.toNat) :=
    h.size_eq
  have hbefore := h.before_lt
  have hpos := Word.toNat_pos h.perPage_ne_zero
  cases hdata : data.isEmpty with
  | false => rfl
  | true =>
    have hnil : data.size = 0 := by
      rw [Collection.size, List.isEmpty_iff.1 hdata, List.length_nil]
    omega

theorem toNat_start :
    (ofData data total perPage number).start.toNat = (number.toNat - 1) * perPage.toNat + 1 := by
  have hstart : (ofData data total perPage number).start.toNat =
      min ((number.toNat - 1) * perPage.toNat + 1) Word.maxCount :=
    (counted_ofData data total perPage number).start_eq h.isEmpty_eq
  have hbefore := h.before_lt
  have htotal := total.toNat_lt
  have hmax : Word.maxCount = 0xFFFFFFFFFFFFFFFF := rfl
  omega

/-- The last position, which is also that of the last record before the next page. -/
theorem toNat_stop : (ofData data total perPage number).stop.toNat =
    min ((number.toNat - 1) * perPage.toNat + perPage.toNat) total.toNat := by
  have hstop : (ofData data total perPage number).stop.toNat =
      min ((ofData data total perPage number).start.toNat + (data.size - 1)) Word.maxCount :=
    (counted_ofData data total perPage number).stop_eq h.isEmpty_eq
  have hsize : data.size = min perPage.toNat (total.toNat - (number.toNat - 1) * perPage.toNat) :=
    h.size_eq
  have hstart := h.toNat_start
  have hbefore := h.before_lt
  have htotal := total.toNat_lt
  have hmax : Word.maxCount = 0xFFFFFFFFFFFFFFFF := rfl
  have hpos := Word.toNat_pos h.perPage_ne_zero
  omega

/-- The records of a page and of those before it. -/
theorem mul_eq : number.toNat * perPage.toNat =
    (number.toNat - 1) * perPage.toNat + perPage.toNat := by
  obtain ⟨n, hn⟩ := Nat.exists_eq_add_of_le' h.one_le_toNat
  rw [hn, Nat.add_sub_cancel, Nat.succ_mul]

/-- The result ends with the page, exactly when it is the last one. -/
theorem total_le_iff : total.toNat ≤ number.toNat * perPage.toNat ↔
    number = lastPage total perPage := by
  have hle : number.toNat ≤ (lastPage total perPage).toNat := UInt64.le_iff_toNat_le.1 h.le_last
  rw [← lastPage_le_iff h.perPage_ne_zero, ← UInt64.toNat_inj]
  omega

/-- **A page with its records is in its place.** -/
theorem inPlace : (ofData data total perPage number).InPlace := by
  have hstart := h.toNat_start
  have hstop := h.toNat_stop
  have hmul := h.mul_eq
  have hbefore := h.before_lt
  have htotal := total.toNat_lt
  have hmax : Word.maxCount = 0xFFFFFFFFFFFFFFFF := rfl
  have hoffset : (Query.pageOffset number perPage).toNat = (number.toNat - 1) * perPage.toNat :=
    Query.toNat_pageOffset hbefore.le htotal
  have hmore : (ofData data total perPage number).stop.toNat < total.toNat ↔
      ¬number = lastPage total perPage := by
    rw [← h.total_le_iff, hmul]
    omega
  refine ⟨?_, ?_, fun s d => ?_, ?_, fun data' h' => ?_, fun hone => ?_, fun hlast => ?_, ?_⟩
  · have hsize : data.size =
        min perPage.toNat (total.toNat - (number.toNat - 1) * perPage.toNat) := h.size_eq
    change (number.toNat - 1) * perPage.toNat + 1 + (data.size - 1) ≤ Word.maxCount
    omega
  · rw [hstart]
    exact congrArg (· + 1) hoffset.symm
  · change s.pageStatement d perPage number = _
    rw [s.pageStatement_eq, hstart, hoffset, Nat.add_sub_cancel]
    rfl
  · change _ = min (number.toNat * perPage.toNat) total.toNat
    rw [hstop, hmul]
  · -- the page behind this one starts where this one is full
    have hnext : (number + 1).toNat = number.toNat + 1 := by
      have hsum : (number + 1).toNat = (number.toNat + 1) % 2 ^ 64 := UInt64.toNat_add number 1
      have hpositive : 1 ≤ (number + 1).toNat := h'.one_le_toNat
      have hnumber := number.toNat_lt
      omega
    have hstart' : (ofData data' total perPage (number + 1)).start.toNat =
        ((number + 1).toNat - 1) * perPage.toNat + 1 := h'.toNat_start
    have hbefore' : ((number + 1).toNat - 1) * perPage.toNat < total.toNat := h'.before_lt
    rw [hnext, Nat.add_sub_cancel, hmul] at hstart' hbefore'
    change (ofData data' total perPage (number + 1)).start.toNat = _
    rw [hstart', hstop]
    omega
  · have hnumber : number.toNat = 1 := congrArg UInt64.toNat hone
    rw [← UInt64.toNat_inj, hstart, hnumber, Nat.sub_self, Nat.zero_mul]
    rfl
  · rw [← UInt64.toNat_inj]
    have hend : ¬(ofData data total perPage number).stop.toNat < total.toNat := by
      rw [hmore, not_not]
      exact hlast
    change (ofData data total perPage number).stop.toNat = total.toNat
    omega
  · have hlt : (ofData data total perPage number).hasMorePages = true ↔
        number < lastPage total perPage := decide_eq_true_iff
    have hle : number.toNat ≤ (lastPage total perPage).toNat :=
      UInt64.le_iff_toNat_le.1 h.le_last
    rw [hlt, UInt64.lt_iff_toNat_lt, UInt64.lt_iff_toNat_lt]
    change _ ↔ (ofData data total perPage number).stop.toNat < total.toNat
    rw [hmore, ← UInt64.toNat_inj]
    omega

end Filled

end Page

/-! ### Pages of a selection -/

namespace Selection

variable {σ : Type} {s : Selection σ} {c : Connection σ} {perPage number : UInt64} {p : Page}
variable {st st' : σ}

/-- A page that a selection gives for a number, zero standing for one, is made of the records that
came for its statement. -/
structure Paginated (s : Selection σ) (c : Connection σ) (perPage number : UInt64) (p : Page) :
    Prop where
  number_eq : p.number = if number = 0 then 1 else number
  page_eq : p = .ofData p.data p.total perPage p.number
  sent : ∃ stmt rows st st', s.pageStatement c.dialect perPage p.number = .ok stmt ∧
    (c.select stmt).from_ st = (.ok rows, st')

theorem paginate_eq_ok (h : (s.paginate c perPage number).from_ st = (.ok p, st')) :
    s.Paginated c perPage number p := by
  unfold paginate at h
  by_cases hper : perPage = 0
  · simp only [if_pos hper] at h
    cases h
  simp only [if_neg hper] at h
  obtain ⟨total, st₁, -, h⟩ := Action.from_bind_eq_ok h
  obtain ⟨data, st₂, hget, h⟩ := Action.from_bind_eq_ok h
  obtain ⟨v, st₃, -, h⟩ := Action.from_bind_eq_ok h
  cases h
  obtain ⟨rows, st₄, hrows, -⟩ := Action.from_bind_eq_ok hget
  obtain ⟨stmt, hstmt, hselect⟩ := Action.from_ofExcept_bind_eq_ok hrows
  exact ⟨rfl, rfl, stmt, rows, st₁, st₄, hstmt, hselect⟩

end Selection

/-! ### All pages -/

/-- **Pages tile the result.** Unless pages have no room, the last page is the first one that
reaches the end. A page of the result with its records is in its place: it starts behind the offset
of its statement and where the page before it stops, the first page starts at one, the last one
stops at the end, and no count is cut off. Whatever the counts and the records are, a page has
positions exactly when it has records, in their order, and they do not wrap. The pages that a
selection gives are such pages, of the records that came for the statement of the page. -/
theorem Page.pages_tile (data : Collection) (total perPage number : UInt64) :
    let p := ofData data total perPage number
    (perPage ≠ 0 → IsLeast {n : Nat | total.toNat ≤ n * perPage.toNat} p.last.toNat) ∧
      (p.Filled → p.InPlace) ∧ p.Counted ∧
      ∀ {σ : Type} {s : Selection σ} {c : Connection σ} {st st' : σ} {given : Page},
        (s.paginate c perPage number).from_ st = (.ok given, st') →
          s.Paginated c perPage number given :=
  ⟨isLeast_last, Filled.inPlace, counted_ofData data total perPage number,
    Selection.paginate_eq_ok⟩

/-- The last page of as many rows as can be counted, three to a page; and the last of five users,
two to a page, as a selection gives it. -/
theorem Page.pages_tile_last :
    let users : Model := { table := "users" }
    let user (n : Int64) : Row := .ofList [("id", .int n)]
    let three : Collection := ⟨users, [1, 2, 3].map fun n => users.hydrate (user n)⟩
    let p := ofData three 0xFFFFFFFFFFFFFFFF 3 0x5555555555555555
    let s : Selection (Script Unit) := .all users
    let c : Connection (Script Unit) := Script.connection "postgres" .postgres "main" (.ok none)
    let st := (Script.start ()).prepare "main"
      [.ok (.ofRows [.ofList [("aggregate", .int 5)]]), .ok (.ofRows [user 5])]
    let given := ofData ⟨users, [users.hydrate (user 5)]⟩ 5 2 3
    p.Filled ∧ p.stop = 0xFFFFFFFFFFFFFFFF ∧
      (∃ st', (s.paginate c 2 3).from_ st = (.ok given, st')) ∧ s.Paginated c 2 3 given ∧
      s.pageStatement .postgres 2 3 = .ok ⟨"SELECT * FROM users LIMIT 2 OFFSET 4", []⟩ ∧
      given.Filled ∧ given.start.toNat = 5 ∧ IsLeast {n : Nat | 5 ≤ n * 2} given.last.toNat := by
  intro users user three p s c st given
  obtain ⟨-, hplace, -, -⟩ := pages_tile three 0xFFFFFFFFFFFFFFFF 3 0x5555555555555555
  obtain ⟨hlast, hplace', -, hpaginated⟩ :=
    pages_tile ⟨users, [users.hydrate (user 5)]⟩ 5 2 3
  have hp : p.Filled := ⟨by decide, by decide, by decide⟩
  have hgiven : given.Filled := ⟨by decide, by decide, by decide⟩
  -- the count is read off a double, which no reduction of the whole run gets through
  have hfive : Query.countOf (some (.int 5)) = 5 := by decide +kernel
  have hrun : ∃ st', (s.paginate c 2 3).from_ st = (.ok (ofData ⟨users, [users.hydrate (user 5)]⟩
      (Query.countOf (some (.int 5))) 2 3), st') := ⟨_, rfl⟩
  rw [hfive] at hrun
  obtain ⟨st', hrun'⟩ := hrun
  exact ⟨hp, (hplace hp).last (by decide), ⟨st', hrun'⟩, hpaginated hrun', rfl, hgiven,
    (hplace' hgiven).start_eq, hlast (by decide)⟩

end ActiveRow
