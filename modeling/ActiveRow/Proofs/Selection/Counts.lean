import ActiveRow.Proofs.Binary.Integer
import ActiveRow.Proofs.Selection.Pagination

/-!
# Counts of a result

A database answers a count with an integer, and the integer is read as a number: it is rounded to
the bits that a double holds before it becomes the count, and one below zero counts nothing. The
last page, and whether there is a next one, are reckoned from the rounded count. All of it is exact
up to `2 ^ 53`, and beyond that where the bits that a double has no room for are zeros.

* `Query.from_count`: the count of a query whose adapter answers with an integer.
* `Page.reckons_ofData`: what a page tells of its result follows from the total alone.
* `Query.count_rounds`: counts and pages of queries and selections, for every integer.
-/

namespace ActiveRow

variable {σ : Type} {c : Connection σ} {n : Int64} {st st' : σ}

namespace Query

/-- The adapter answers the statement that counts a query with this integer. -/
def CountAnswered (q : Query) (c : Connection σ) (n : Int64) (st st' : σ) : Prop :=
  ∃ stmt out, q.aggregateStatement c.dialect .count "*" = .ok stmt ∧
    (c.adapter.query stmt.sql stmt.bindings).from_
      (c.observe (.dispatching .select stmt.sql) st) = (.ok out, st') ∧
    (out.rows.head?.bind fun row => cell? row Aggregate.label) = some (.int n)

theorem from_count {q : Query} (h : q.CountAnswered c n st st') :
    (q.count c).from_ st = (.ok (countOf (some (.int n))), st') := by
  obtain ⟨stmt, out, hstmt, hanswer, hcell⟩ := h
  have hrows := c.from_select stmt hanswer
  simp only [count, aggregate?, Action.from_bind, hstmt, Action.from_ofExcept, hrows,
    Action.from_pure, hcell]
  rfl

/-- An integer is counted as a double keeps it, and as zero when it is negative. -/
theorem toNat_countOf_int (n : Int64) :
    (countOf (some (.int n))).toNat = (Double.kept n.toInt).toNat :=
  Double.toNat_toCount_ofInt n

theorem countOf_int_eq_iff : (countOf (some (.int n))).toNat = n.toInt.toNat ↔
    n.toInt < 0 ∨ 2 ^ Binary.Format.double.excess n.toInt.natAbs ∣ n.toInt.natAbs := by
  rw [toNat_countOf_int, ← Double.kept_eq_self_iff, Double.kept]
  split <;> omega

end Query

/-- What a page tells of its result is so for a result of this many rows: how many they are, which
page is the first to reach the end, and whether the page itself stops before it. -/
structure Page.Reckons (p : Page) (total : Nat) : Prop where
  total_eq : p.total.toNat = total
  isLeast_last : IsLeast {m : Nat | total ≤ m * p.perPage.toNat} p.last.toNat
  more_iff : p.hasMorePages = true ↔ p.number.toNat * p.perPage.toNat < total

theorem Page.reckons_ofData (data : Collection) (total number : UInt64) {perPage : UInt64}
    (hper : perPage ≠ 0) : (ofData data total perPage number).Reckons total.toNat := by
  refine ⟨rfl, Page.isLeast_last hper, ?_⟩
  have hmore : (ofData data total perPage number).hasMorePages = true ↔
      number < lastPage total perPage := decide_eq_true_iff
  rw [hmore, UInt64.lt_iff_toNat_lt, ← not_le, Page.lastPage_le_iff hper, not_le]
  exact Iff.rfl

theorem Selection.from_count {s : Selection σ} (h : s.toQuery.CountAnswered c n st st') :
    (s.count c).from_ st = (.ok (Query.countOf (some (.int n))), st') :=
  Query.from_count h

/-- A selection whose count is answered gives the page of the records that come for it. -/
theorem Selection.from_paginate {s : Selection σ} {perPage : UInt64} (number : UInt64)
    {data : Collection} {st₂ : σ} (hcount : s.toQuery.CountAnswered c n st st')
    (hper : perPage ≠ 0)
    (hdata : ((s.refine (·.forPage (if number = 0 then 1 else number) perPage)).get c).from_ st' =
      (.ok data, st₂)) :
    ∃ st'', (s.paginate c perPage number).from_ st =
      (.ok (.ofData data (Query.countOf (some (.int n))) perPage
        (if number = 0 then 1 else number)), st'') := by
  have htotal := Selection.from_count hcount
  refine ⟨c.observe (.paginated s.model.table (if number = 0 then 1 else number) perPage
    (Query.countOf (some (.int n))) data.size) st₂, ?_⟩
  unfold paginate
  simp only [if_neg hper, Action.from_bind, htotal, hdata, Connection.report,
    Action.from_update]
  rfl

/-- **Counts are rounded.** When the adapter answers the statement that counts a query with an
integer, the count is the integer as a double keeps it, and zero for a negative one. So it is the
number of rows up to `2 ^ 53`, and beyond that exactly when the bits that a double has no room for
are zeros. A selection counts like its query, and its pages are pages of a result of that many
rows. -/
theorem Query.count_rounds (c : Connection σ) (n : Int64) (st st' : σ) :
    let k := countOf (some (.int n))
    k.toNat = (Double.kept n.toInt).toNat ∧
      (k.toNat = n.toInt.toNat ↔
        n.toInt < 0 ∨ 2 ^ Binary.Format.double.excess n.toInt.natAbs ∣ n.toInt.natAbs) ∧
      (n.toInt ≤ 0x20000000000000 → k.toNat = n.toInt.toNat) ∧
      (∀ q : Query, q.CountAnswered c n st st' → (q.count c).from_ st = (.ok k, st')) ∧
      ∀ s : Selection σ, s.toQuery.CountAnswered c n st st' →
        (s.count c).from_ st = (.ok k, st') ∧
        ∀ (perPage number : UInt64) (data : Collection) (st₂ : σ), perPage ≠ 0 →
          ((s.refine (·.forPage (if number = 0 then 1 else number) perPage)).get c).from_ st' =
            (.ok data, st₂) →
          ∃ p st₃, (s.paginate c perPage number).from_ st = (.ok p, st₃) ∧
            p.data = data ∧ p.perPage = perPage ∧
            p.number = (if number = 0 then 1 else number) ∧ p.Reckons k.toNat := by
  intro k
  refine ⟨toNat_countOf_int n, countOf_int_eq_iff, fun hn => countOf_int_eq_iff.2 ?_,
    fun q h => from_count h, fun s h => ⟨Selection.from_count h, ?_⟩⟩
  · rcases lt_or_ge n.toInt 0 with hneg | hpos
    · exact .inl hneg
    · have hsmall : n.toInt.natAbs ≤ 2 ^ (Binary.Format.double.fractionBits + 1) := by
        change n.toInt.natAbs ≤ 0x20000000000000
        omega
      exact .inr (Double.kept_eq_self_iff.1 (Double.kept_of_le hsmall))
  · intro perPage number data st₂ hper hdata
    obtain ⟨st₃, hpage⟩ := Selection.from_paginate number h hper hdata
    exact ⟨_, st₃, hpage, rfl, rfl, rfl, Page.reckons_ofData data k _ hper⟩

/-- Two users on a page, of seven; and as many users as no double counts, one more of which is
counted than there are. -/
theorem Query.count_rounds_users :
    let users : Model := { table := "users" }
    let s : Selection (Script Unit) := .all users
    let c : Connection (Script Unit) := Script.connection "postgres" .postgres "main" (.ok none)
    let answered (n : Int64) := (Script.start ()).prepare "main"
      [.ok (.ofRows [.ofList [("aggregate", .int n)]]), .ok (.ofRows [])]
    let counted (n : Int64) := ((s.count c).from_ (answered n)).2
    (s.count c).from_ (answered 7) = (.ok 7, counted 7) ∧
      (∃ p st', (s.paginate c 2 3).from_ (answered 7) = (.ok p, st') ∧ p.Reckons 7) ∧
      (s.count c).from_ (answered 9007199254740995) =
        (.ok 9007199254740996, counted 9007199254740995) := by
  intro users s c answered counted
  have hseven : countOf (some (.int 7)) = 7 := by decide +kernel
  have hmany : countOf (some (.int 9007199254740995)) = 9007199254740996 := by decide +kernel
  have hanswered (n : Int64) : s.toQuery.CountAnswered c n (answered n) (counted n) :=
    ⟨⟨"SELECT COUNT(*) AS aggregate FROM users", []⟩, _, rfl, rfl, rfl⟩
  obtain ⟨-, -, -, -, hselection⟩ := count_rounds c 7 (answered 7) (counted 7)
  obtain ⟨-, -, -, -, hmore⟩ :=
    count_rounds c 9007199254740995 (answered 9007199254740995) (counted 9007199254740995)
  rw [hseven] at hselection
  rw [hmany] at hmore
  obtain ⟨hcount, hpages⟩ := hselection s (hanswered 7)
  obtain ⟨p, st', hpage, -, -, -, hreckons⟩ := hpages 2 3 ⟨users, []⟩ _ (by decide) rfl
  exact ⟨hcount, ⟨p, st', hpage, hreckons⟩, (hmore s (hanswered _)).1⟩

/-- A row is lost when `2 ^ 53 + 1` are counted, and with it the last page. -/
theorem Query.count_loses_row :
    let n : Int64 := 9007199254740993
    let users : Model := { table := "users" }
    let s : Selection (Script Unit) := .all users
    let c : Connection (Script Unit) := Script.connection "postgres" .postgres "main" (.ok none)
    let st := (Script.start ()).prepare "main"
      [.ok (.ofRows [.ofList [("aggregate", .int n)]]), .ok (.ofRows [])]
    let p := Page.ofData ⟨users, []⟩ 9007199254740992 1 9007199254740992
    ∃ st' st'', s.toQuery.CountAnswered c n st st' ∧ n.toInt.toNat = 9007199254740993 ∧
      (s.count c).from_ st = (.ok 9007199254740992, st') ∧
      (s.paginate c 1 9007199254740992).from_ st = (.ok p, st'') ∧
      p.last = 9007199254740992 ∧ p.hasMorePages = false := by
  intro n users s c st p
  have hcount : countOf (some (.int n)) = 9007199254740992 := by decide +kernel
  obtain ⟨st', hanswered, st₂, hdata⟩ : ∃ st', s.toQuery.CountAnswered c n st st' ∧
      ∃ st₂, ((s.refine (·.forPage 9007199254740992 1)).get c).from_ st' =
        (.ok ⟨users, []⟩, st₂) :=
    ⟨_, ⟨⟨"SELECT COUNT(*) AS aggregate FROM users", []⟩, _, rfl, rfl, rfl⟩, _, rfl⟩
  obtain ⟨st'', hpage⟩ :=
    Selection.from_paginate 9007199254740992 hanswered (by decide) hdata
  have hrun := Selection.from_count hanswered
  rw [hcount] at hpage hrun
  exact ⟨st', st'', hanswered, by decide, hrun, hpage, by decide, by decide⟩

end ActiveRow
