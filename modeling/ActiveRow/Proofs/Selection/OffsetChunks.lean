import Mathlib.Algebra.Group.Nat.Defs
import ActiveRow.Proofs.Action
import ActiveRow.Proofs.Compilation
import ActiveRow.Proofs.Selection.KeyedPage
import ActiveRow.Proofs.Selection.Table
import ActiveRow.Proofs.Slices

/-!
# Chunks by offset

A run over chunks by offset counts pages, and asks for each page by its offset. Over rows that do
not change, the pages are the rows cut into slices.

* `selectStatement_forPage`: the statements of pages differ in the offset alone.
* `Serves.from_page`: a page is the slice at its offset, asked for once.
* `Serves.covers_from`: what a run from a page on comes to, by induction on the bound.
* `Serves.chunk_covers`: a whole run visits the slices of all rows in order, as long as the visitor
  wants to go on.
-/

namespace ActiveRow

/-! ### The statement of a page -/

/-- The statement for the part of the rows within an extent. -/
def Statement.within (size offset : Nat) (s : Statement) : Statement :=
  ⟨s.sql ++ (" LIMIT " ++ Nat.repr size) ++ (" OFFSET " ++ Nat.repr offset), s.bindings⟩

/-- Statements for parts from different rows on differ. -/
theorem Statement.sql_within_inj {s : Statement} {size m n : Nat} :
    (s.within size m).sql = (s.within size n).sql ↔ m = n := by
  have hrepr : Nat.repr m = Nat.repr n ↔ m = n := by
    constructor
    · intro h
      have hdigits : Nat.toDigits 10 m = Nat.toDigits 10 n := String.ofList_injective h
      have hm : Nat.ofDigitChars 10 (Nat.toDigits 10 m) 0 = m :=
        Nat.ofDigitChars_toDigits (by decide) (by decide)
      rw [← hm, hdigits]
      exact Nat.ofDigitChars_toDigits (by decide) (by decide)
    · rintro rfl
      rfl
  rw [within, within, String.append_right_inj, String.append_right_inj, hrepr]

theorem Piece.finish_append_texts (style : Placeholder) (ps : List Piece) (a b : String) :
    finish style (ps ++ [.text a, .text b]) =
      (finish style ps).map fun s => ⟨s.sql ++ a ++ b, s.bindings⟩ := by
  have hflaw : firstFlaw? (ps ++ [.text a, .text b]) = firstFlaw? ps := by
    simp [firstFlaw?_append, firstFlaw?]
  unfold finish
  rw [hflaw]
  cases firstFlaw? ps with
  | some cause => rfl
  | none => simp [Except.map, render_append, render, bindings_append, bindings, String.append_assoc]

namespace Query

/-- The query without extent. -/
def entire (q : Query) : Query := { q with limit := none, offset := none }

/-- **Statements of pages** differ in the offset alone. -/
theorem selectStatement_forPage (d : Dialect) (q : Query) (page size : UInt64) :
    (q.forPage page size).selectStatement d =
      (q.entire.selectStatement d).map
        (Statement.within size.toNat (pageOffset page size).toNat) := by
  have hpieces : ∀ table, (q.forPage page size).selectPieces d table =
      q.entire.selectPieces d table ++ [.text (" LIMIT " ++ Nat.repr size.toNat),
        .text (" OFFSET " ++ Nat.repr (pageOffset page size).toNat)] := by
    intro table
    have hnone : q.entire.extentPieces d = [] := rfl
    have hsome : (q.forPage page size).extentPieces d =
        [.text (" LIMIT " ++ Nat.repr size.toNat),
          .text (" OFFSET " ++ Nat.repr (pageOffset page size).toNat)] := rfl
    rw [selectPieces, selectPieces, hnone, hsome, List.append_nil]
    rfl
  have hvalid : (q.forPage page size).validate = q.entire.validate := rfl
  have htable : (q.forPage page size).requireTable = q.entire.requireTable := rfl
  simp only [selectStatement, hvalid, htable, hpieces, Piece.finish_append_texts]
  cases q.entire.validate with
  | error cause => rfl
  | ok =>
    cases q.entire.requireTable with
    | error cause => rfl
    | ok table => rfl

/-- The offset of a page that is in range is not cut off. -/
theorem toNat_pageOffset {page size : UInt64} {n : Nat} (h : (page.toNat - 1) * size.toNat ≤ n)
    (hn : n < 2 ^ 64) : (pageOffset page size).toNat = (page.toNat - 1) * size.toNat := by
  rw [pageOffset, Word.toNat_saturate, Word.maxCount]
  omega

end Query

namespace Selection

variable {σ : Type} (s : Selection σ)

theorem toQuery_refine_forPage (page size : UInt64) :
    (s.refine (·.forPage page size)).toQuery = s.toQuery.forPage page size := by
  have hwheres := s.wheres_scopedTo_refine (f := (·.forPage page size)) rfl rfl s.trashed
  have hpage := (s.refine (·.forPage page size)).scopedTo_eq s.trashed
  have hquery := s.scopedTo_eq s.trashed
  rw [hwheres] at hpage
  rw [toQuery, toQuery, hquery]
  exact hpage

/-- The statement of a page of a selection. -/
def pageStatement (d : Dialect) (size page : UInt64) : Except Fault Statement :=
  (s.refine (·.forPage page size)).toQuery.selectStatement d

theorem pageStatement_eq (d : Dialect) (size page : UInt64) : s.pageStatement d size page =
    (s.toQuery.entire.selectStatement d).map
      (Statement.within size.toNat (Query.pageOffset page size).toNat) := by
  rw [pageStatement, toQuery_refine_forPage, Query.selectStatement_forPage]

/-- The rows of a page, of all the rows. -/
theorem cut_page {α : Type} (page size : UInt64) (rows : List α) :
    (s.refine (·.forPage page size)).toQuery.cut rows =
      (rows.drop (Query.pageOffset page size).toNat).take size.toNat := by
  rw [toQuery_refine_forPage]
  rfl

/-- Without relations to load, the records of rows are the rows hydrated. -/
theorem hydrate_of_eager {s : Selection σ} (h : s.eager = []) (c : Connection σ)
    (rows : List Row) : s.hydrate c rows = pure ⟨s.model, rows.map s.model.hydrate⟩ := by
  unfold hydrate
  cases rows with
  | nil => rfl
  | cons row rows =>
    rw [h]
    rfl

end Selection

/-! ### Pages -/

/-- A run has come to a page: its offset is within the rows, and the number of a page is free for
each of the slices that are left. -/
structure AtPage (size : UInt64) (rows : List Row) (page : UInt64) (rest : List Row) : Prop where
  counted : 1 ≤ page.toNat
  within : (page.toNat - 1) * size.toNat ≤ rows.length
  left : rows.drop ((page.toNat - 1) * size.toNat) = rest
  room : page.toNat + rest.length / size.toNat < 2 ^ 64

namespace AtPage

variable {size page : UInt64} {rows rest : List Row}

theorem first (h : rows.length / size.toNat + 1 < 2 ^ 64) : AtPage size rows 1 rows where
  counted := le_rfl
  within := by simp
  left := by simp
  room := by
    have hone : (1 : UInt64).toNat = 1 := rfl
    omega

variable (h : AtPage size rows page rest)

include h

theorem length_rest : rest.length = rows.length - (page.toNat - 1) * size.toNat := by
  rw [← h.left, List.length_drop]

/-- **From page to page.** Behind a full page comes the next, where the rest without it is left. -/
theorem next (hsize : 0 < size.toNat) (hfull : size.toNat ≤ rest.length) :
    (page + 1).toNat = page.toNat + 1 ∧ AtPage size rows (page + 1) (rest.drop size.toNat) := by
  have hpage := h.counted
  have hwithin := h.within
  have hroom := h.room
  have hlength := h.length_rest
  have hone : 1 ≤ rest.length / size.toNat := (Nat.one_le_div_iff hsize).2 hfull
  have hnext : (page + 1).toNat = page.toNat + 1 := by
    have hsum : (page + 1).toNat = (page.toNat + 1) % 2 ^ 64 := UInt64.toNat_add page 1
    omega
  have hoffset : ((page + 1).toNat - 1) * size.toNat =
      (page.toNat - 1) * size.toNat + size.toNat := by
    have hback : (page + 1).toNat - 1 = page.toNat - 1 + 1 := by omega
    rw [hback, Nat.succ_mul]
  have hcount : (rest.drop size.toNat).length / size.toNat + 1 = rest.length / size.toNat := by
    rw [List.length_drop, Nat.div_eq_sub_div hsize hfull]
  refine ⟨hnext, by omega, by omega, ?_, by omega⟩
  rw [hoffset, ← List.drop_drop, h.left]

end AtPage

/-! ### Runs -/

/-- What can be seen of the states that a run over pages goes through: the statements that were
asked, and the records of each page that the visitor was given, with what the visitor answered. -/
structure Ledger (σ : Type) where
  asked : σ → List Statement
  given : σ → List (List Record × Except Fault Bool)

namespace Ledger

variable {σ : Type}

/-- How a ledger takes part in a run over the pages of a selection that loads no relations. The
statement of a page is answered with the part of the rows, always the same, that it asks for. -/
structure Serves (l : Ledger σ) (s : Selection σ) (c : Connection σ) (size : UInt64)
    (rows : List Row) (visit : Collection → Action σ Bool) : Prop where
  eager : s.eager = []
  answers : ∀ page stmt, s.pageStatement c.dialect size page = .ok stmt → ∀ st, ∃ count st',
    (c.adapter.query stmt.sql stmt.bindings).from_ st =
        (.ok ⟨(s.refine (·.forPage page size)).toQuery.cut rows, count⟩, st') ∧
      l.asked st' = l.asked st ++ [stmt] ∧ l.given st' = l.given st
  visits : ∀ records st r st', (visit records).from_ st = (r, st') →
    l.asked st' = l.asked st ∧ l.given st' = l.given st ++ [(records.items, r)]
  observes : ∀ e st, l.asked (c.observe e st) = l.asked st ∧ l.given (c.observe e st) = l.given st

/-- What a run over slices comes to, whose statements are `asks 0`, `asks 1` and so on. The visitor
was given all of them and `count` statements were asked, or those up to the first for which the
visitor did not want to go on, with one statement for each. -/
inductive Covers (l : Ledger σ) (s : Selection σ) (visit : Collection → Action σ Bool)
    (asks : Nat → Statement) (slices : List (List Row)) (count : Nat) (st : σ) :
    Except Fault Selection.Ending × σ → Prop where
  | all {st' : σ} (given : l.given st' = l.given st ++
        slices.map fun slice => (slice.map s.model.hydrate, .ok true))
      (asked : l.asked st' = l.asked st ++ (List.range count).map asks) :
      Covers l s visit asks slices count st (.ok .complete, st')
  | upTo {st' : σ} (earlier : List (List Row)) (slice : List Row) (later : List (List Row))
      (answer : Except Fault Bool) (parts : slices = earlier ++ slice :: later)
      (answered : ∃ there, ((visit ⟨s.model, slice.map s.model.hydrate⟩).from_ there).1 = answer)
      (ends : answer ≠ .ok true)
      (given : l.given st' = l.given st ++
        (earlier.map fun slice => (slice.map s.model.hydrate, .ok true)) ++
          [(slice.map s.model.hydrate, answer)])
      (asked : l.asked st' = l.asked st ++ (List.range (earlier.length + 1)).map asks) :
      Covers l s visit asks slices count st (answer.map fun _ => .stopped, st')

/-- **One page and a run behind it.** -/
theorem Covers.cons {l : Ledger σ} {s : Selection σ} {visit : Collection → Action σ Bool}
    {asks : Nat → Statement} {slice : List Row} {slices : List (List Row)} {count : Nat}
    {st st' : σ} {after : Except Fault Selection.Ending × σ}
    (hasked : l.asked st' = l.asked st ++ [asks 0])
    (hgiven : l.given st' = l.given st ++ [(slice.map s.model.hydrate, .ok true)])
    (h : l.Covers s visit (fun i => asks (i + 1)) slices count st' after) :
    l.Covers s visit asks (slice :: slices) (count + 1) st after := by
  have hrange : ∀ n, asks 0 :: (List.range n).map (fun i => asks (i + 1)) =
      (List.range (n + 1)).map asks := by
    intro n
    rw [List.range_succ_eq_map, List.map_cons, List.map_map]
    rfl
  cases h with
  | all given asked =>
    refine .all ?_ ?_
    · rw [given, hgiven, List.append_assoc]
      rfl
    · rw [asked, hasked, List.append_assoc, ← hrange]
      rfl
  | upTo earlier last later answer parts answered ends given asked =>
    refine .upTo (slice :: earlier) last later answer ?_ answered ends ?_ ?_
    · rw [parts]
      rfl
    · rw [given, hgiven, List.map_cons]
      simp only [List.append_assoc, List.cons_append, List.nil_append]
    · rw [asked, hasked, List.append_assoc, List.length_cons, ← hrange]
      rfl

namespace Serves

variable {l : Ledger σ} {s : Selection σ} {c : Connection σ} {size : UInt64} {rows : List Row}
variable {visit : Collection → Action σ Bool}

/-- A selection whose statements are refused asks nothing. -/
theorem from_refused {cause : Fault} {page : UInt64}
    (h : s.pageStatement c.dialect size page = .error cause) (st : σ) :
    ((s.refine (·.forPage page size)).get c).from_ st = (.error cause, st) := by
  rw [Selection.get, Query.get]
  rw [Selection.pageStatement] at h
  simp only [Action.from_bind, h, Action.from_ofExcept]

variable (h : l.Serves s c size rows visit)

include h

/-- **A page** is the slice at its offset, asked for once. -/
theorem from_page {page : UInt64} {stmt : Statement}
    (hstmt : s.pageStatement c.dialect size page = .ok stmt) (st : σ) : ∃ st',
      ((s.refine (·.forPage page size)).get c).from_ st =
          (.ok ⟨s.model, ((rows.drop (Query.pageOffset page size).toNat).take size.toNat).map
            s.model.hydrate⟩, st') ∧
        l.asked st' = l.asked st ++ [stmt] ∧ l.given st' = l.given st := by
  have hevent := h.observes (.dispatching .select stmt.sql) st
  obtain ⟨count, st', hquery, hasked, hgiven⟩ :=
    h.answers page stmt hstmt (c.observe (.dispatching .select stmt.sql) st)
  rw [s.cut_page] at hquery
  refine ⟨st', ?_, hasked.trans (congrArg (· ++ _) hevent.1), hgiven.trans hevent.2⟩
  rw [Selection.pageStatement] at hstmt
  rw [Selection.get, Query.get]
  simp only [Action.from_bind, hstmt, Action.from_ofExcept, Connection.select,
    Connection.from_dispatch, Adapter.from_rows, hquery, Except.map, s.hydrate_refine,
    Selection.hydrate_of_eager h.eager, Action.from_pure]

/-- A page that was fetched is given to the visitor, whose answer decides how to go on. -/
theorem from_visit (records : Collection) (e : Event) (next : Action σ Selection.Ending) (st : σ) :
    ∃ answer st', (∃ there, ((visit records).from_ there).1 = answer) ∧
      l.asked st' = l.asked st ∧ l.given st' = l.given st ++ [(records.items, answer)] ∧
      (c.report e >>= fun _ => visit records >>= fun goOn =>
          Selection.proceed goOn (UInt64.ofNat records.size) size next).from_ st =
        match answer with
        | .ok true =>
          if UInt64.ofNat records.size < size then (.ok .complete, st') else next.from_ st'
        | _ => (answer.map fun _ => .stopped, st') := by
  have hevent := h.observes e st
  rcases hvisit : (visit records).from_ (c.observe e st) with ⟨answer, st'⟩
  obtain ⟨hasked, hgiven⟩ := h.visits records _ _ _ hvisit
  refine ⟨answer, st', ⟨_, congrArg Prod.fst hvisit⟩, hasked.trans hevent.1, ?_, ?_⟩
  · rw [hgiven, hevent.2]
  · simp only [Action.from_bind, Connection.report, Action.from_update, hvisit]
    cases answer with
    | error cause => rfl
    | ok goOn =>
      cases goOn with
      | false => rfl
      | true =>
        simp only [Selection.proceed, Bool.not_true, Bool.false_eq_true, if_false]
        split <;> rfl

/-- **One step of a run.** The statement of the page is asked. Without rows, the run is over; else
the page is given to the visitor, and the run goes on behind a full page if the visitor says so. -/
theorem from_step {page : UInt64} {stmt : Statement}
    (hstmt : s.pageStatement c.dialect size page = .ok stmt) (bound : Nat) (st : σ) :
    let slice := (rows.drop (Query.pageOffset page size).toNat).take size.toNat
    ∃ st', l.asked st' = l.asked st ++ [stmt] ∧
      ((slice = [] ∧ l.given st' = l.given st ∧
          (s.chunksFrom c size visit (bound + 1) page).from_ st = (.ok .complete, st')) ∨
        (slice ≠ [] ∧ ∃ answer,
          (∃ there, ((visit ⟨s.model, slice.map s.model.hydrate⟩).from_ there).1 = answer) ∧
          l.given st' = l.given st ++ [(slice.map s.model.hydrate, answer)] ∧
          (s.chunksFrom c size visit (bound + 1) page).from_ st =
            match answer with
            | .ok true =>
              if slice.length < size.toNat then (.ok .complete, st')
              else (s.chunksFrom c size visit bound (page + 1)).from_ st'
            | _ => (answer.map fun _ => .stopped, st'))) := by
  intro slice
  obtain ⟨st₁, hget, hasked, hgiven⟩ := h.from_page hstmt st
  obtain ⟨records, hrecords⟩ : ∃ records, records = Collection.mk s.model
    (slice.map s.model.hydrate) := ⟨_, rfl⟩
  have hitems : records.items = slice.map s.model.hydrate := by rw [hrecords]
  have hlength : records.size = slice.length := by rw [Collection.size, hitems, List.length_map]
  rw [← hrecords] at hget
  rw [Selection.chunksFrom, Action.from_bind, hget]
  by_cases hnil : slice = []
  · have hempty : records.isEmpty = true := by
      rw [Collection.isEmpty, hitems, hnil]
      rfl
    refine ⟨st₁, hasked, .inl ⟨hnil, hgiven, ?_⟩⟩
    simp only [hempty, if_true, Action.from_pure]
  · have hsome : ¬records.isEmpty = true := by
      rw [Collection.isEmpty, hitems]
      simpa using hnil
    obtain ⟨answer, st', hanswer, hasked', hgiven', hrun⟩ := h.from_visit records
      (.chunk s.model.table page records.size) (s.chunksFrom c size visit bound (page + 1)) st₁
    have hcount : UInt64.ofNat records.size < size ↔ slice.length < size.toNat := by
      have hle : slice.length ≤ size.toNat := List.length_take_le _ _
      have hlt := size.toNat_lt
      rw [hlength, UInt64.lt_iff_toNat_lt, UInt64.toNat_ofNat', Nat.mod_eq_of_lt (by omega)]
    refine ⟨st', hasked'.trans hasked, .inr ⟨hnil, answer, hrecords ▸ hanswer, ?_, ?_⟩⟩
    · rw [hgiven', hgiven, hitems]
    · simp only [hcount] at hrun
      simp only [hsome, Bool.false_eq_true, if_false]
      exact hrun

/-- **Runs from a page on** cover the rows that are left, by induction on the bound. -/
theorem covers_from (hsize : 0 < size.toNat) (hlength : rows.length < 2 ^ 64) {base : Statement}
    (hbase : s.toQuery.entire.selectStatement c.dialect = .ok base) :
    ∀ (bound : Nat) (page : UInt64) (rest : List Row) (st : σ), AtPage size rows page rest →
      rest.length / size.toNat < bound → ∃ slices, Slices size.toNat rest slices ∧
        l.Covers s visit (fun i => base.within size.toNat ((page.toNat - 1 + i) * size.toNat))
          slices (rest.length / size.toNat + 1) st
          ((s.chunksFrom c size visit bound page).from_ st) := by
  intro bound
  induction bound with
  | zero =>
    intro page rest st _ hbound
    exact absurd hbound (Nat.not_lt_zero _)
  | succ bound ih =>
    intro page rest st hpage hbound
    have hat : (Query.pageOffset page size).toNat = (page.toNat - 1) * size.toNat :=
      Query.toNat_pageOffset hpage.within hlength
    have hstmt : s.pageStatement c.dialect size page =
        .ok (base.within size.toNat ((page.toNat - 1) * size.toNat)) := by
      rw [s.pageStatement_eq, hbase, hat]
      rfl
    obtain ⟨st', hasked, hstep⟩ := h.from_step hstmt bound st
    rw [hat, hpage.left] at hstep
    rcases hstep with ⟨hnil, hgiven, hrun⟩ | ⟨hne, answer, hanswer, hgiven, hrun⟩
    · -- nothing is left
      obtain rfl : rest = [] := (List.take_eq_nil_iff.1 hnil).resolve_left hsize.ne'
      rw [hrun, List.length_nil, Nat.zero_div]
      refine ⟨[], .nil, .all ?_ hasked⟩
      rw [hgiven, List.map_nil, List.append_nil]
    · have hrest : rest ≠ [] := by
        rintro rfl
        rw [List.take_nil] at hne
        exact hne rfl
      rw [hrun]
      by_cases hgo : answer = .ok true
      · subst hgo
        by_cases hshort : rest.length < size.toNat
        · -- a short page is the last
          have htake : rest.take size.toNat = rest := List.take_of_length_le hshort.le
          rw [htake] at hgiven ⊢
          rw [Nat.div_eq_of_lt hshort]
          simp only [if_pos hshort]
          exact ⟨[rest], .single hrest hshort.le, .all hgiven hasked⟩
        · -- the run goes on from the next page
          have hfull : size.toNat ≤ rest.length := Nat.le_of_not_lt hshort
          obtain ⟨hnext, hpage'⟩ := hpage.next hsize hfull
          have hcount : (rest.drop size.toNat).length / size.toNat + 1 =
              rest.length / size.toNat := by
            rw [List.length_drop, Nat.div_eq_sub_div hsize hfull]
          obtain ⟨slices, hslices, hcovers⟩ := ih (page + 1) _ st' hpage' (by omega)
          have hasks : (fun i => base.within size.toNat (((page + 1).toNat - 1 + i) * size.toNat)) =
              fun i => base.within size.toNat ((page.toNat - 1 + (i + 1)) * size.toNat) := by
            funext i
            have hcounted := hpage.counted
            have hindex : (page + 1).toNat - 1 + i = page.toNat - 1 + (i + 1) := by omega
            rw [hindex]
          have hlong : ¬(rest.take size.toNat).length < size.toNat := by
            rw [List.length_take]
            omega
          rw [hasks, hcount] at hcovers
          simp only [if_neg hlong]
          exact ⟨_, .cons hsize hfull hslices, .cons hasked hgiven hcovers⟩
      · obtain ⟨later, hslices⟩ := Slices.exists_cons hsize hrest
        refine ⟨_, hslices, ?_⟩
        split
        · exact absurd rfl hgo
        · refine .upTo [] _ later answer rfl hanswer hgo ?_ hasked
          rw [hgiven, List.map_nil, List.append_nil]

/-- **Chunks by offset cover the rows.** If no statement can be made, the fault is handed on, and
nothing is asked or given. Else a run over rows that do not change visits the slices of the rows in
order: all of them, with `rows / size + 1` statements, or those up to the first that the visitor
does not answer with going on, with one statement for each. It ends by itself. The number of
statements that all slices take has to be less than `2 ^ 64`, where the count of pages ends. -/
theorem chunk_covers (hsize : size ≠ 0) (hlength : rows.length < 2 ^ 64)
    (hpages : rows.length / size.toNat + 1 < 2 ^ 64) {bound : Nat}
    (hbound : rows.length / size.toNat < bound) (st : σ) :
    let after := (s.chunk c bound size visit).from_ st
    match s.toQuery.entire.selectStatement c.dialect with
    | .error cause => after.1 = .error cause ∧ l.asked after.2 = l.asked st ∧
        l.given after.2 = l.given st
    | .ok base => ∃ slices, Slices size.toNat rows slices ∧
        l.Covers s visit (fun i => base.within size.toNat (i * size.toNat)) slices
          (rows.length / size.toNat + 1) st after := by
  intro after
  have hpos : 0 < size.toNat := Nat.pos_of_ne_zero fun h0 => hsize (UInt64.toNat_inj.1 h0)
  have hchunk : s.chunk c bound size visit = s.chunksFrom c size visit bound 1 := if_neg hsize
  split
  · rename_i cause hcause
    obtain ⟨bound, rfl⟩ := Nat.exists_eq_succ_of_ne_zero (Nat.ne_zero_of_lt hbound)
    have hstmt : s.pageStatement c.dialect size 1 = .error cause := by
      rw [s.pageStatement_eq, hcause]
      rfl
    have hafter : after = (.error cause, st) := by
      simp only [after]
      rw [hchunk, Selection.chunksFrom, Action.from_bind, from_refused hstmt]
    rw [hafter]
    exact ⟨rfl, rfl, rfl⟩
  · rename_i base hbase
    obtain ⟨slices, hslices, hcovers⟩ :=
      h.covers_from hpos hlength hbase bound 1 rows st (.first hpages) hbound
    have hasks : (fun i => base.within size.toNat (((1 : UInt64).toNat - 1 + i) * size.toNat)) =
        fun i => base.within size.toNat (i * size.toNat) := by
      funext i
      have hindex : (1 : UInt64).toNat - 1 + i = i := by simp
      rw [hindex]
    rw [hasks, ← hchunk] at hcovers
    exact ⟨slices, hslices, hcovers⟩

/-- **A count of pages that runs out.** If every page is full, whatever its number, and the visitor
always wants to go on, a run comes to no end. -/
theorem from_endless {base : Statement}
    (hbase : s.toQuery.entire.selectStatement c.dialect = .ok base) (hsize : 0 < size.toNat)
    (hfull : ∀ page, size.toNat ≤ (rows.drop (Query.pageOffset page size).toNat).length)
    (hgo : ∀ records st, ((visit records).from_ st).1 = .ok true) : ∀ (bound : Nat)
      (page : UInt64) (st : σ),
      ((s.chunksFrom c size visit bound page).from_ st).1 = .ok .unfinished := by
  intro bound
  induction bound with
  | zero => exact fun page st => rfl
  | succ bound ih =>
    intro page st
    have hstmt := s.pageStatement_eq c.dialect size page
    rw [hbase] at hstmt
    have hlength : ((rows.drop (Query.pageOffset page size).toNat).take size.toNat).length =
        size.toNat := List.length_take_of_le (hfull page)
    obtain ⟨st', -, hstep⟩ := h.from_step hstmt bound st
    rcases hstep with ⟨hnil, -, -⟩ | ⟨-, answer, ⟨there, hanswer⟩, -, hrun⟩
    · rw [hnil, List.length_nil] at hlength
      omega
    · obtain rfl : answer = .ok true := hanswer.symm.trans (hgo _ there)
      have hlong : ¬((rows.drop (Query.pageOffset page size).toNat).take size.toNat).length <
          size.toNat := by omega
      simp only [if_neg hlong] at hrun
      rw [hrun]
      exact ih (page + 1) st'

end Serves

/-! ### A ledger -/

section

/-- The statements that were asked, and what was given. -/
abbrev Entries := List Statement × List (List Record × Except Fault Bool)

def entries : Ledger Entries := ⟨Prod.fst, Prod.snd⟩

/-- A connection that answers each text with rows, and enters the statement. -/
def entering (answer : String → List Row) : Connection Entries := .ofAdapter
  { dialect := .postgres
    driver := "pg"
    connect := pure ()
    disconnect := pure ()
    begin_ := pure ()
    commit := pure ()
    rollback := pure ()
    query := fun sql bindings st => (.ok (.ofRows (answer sql)), st.1 ++ [⟨sql, bindings⟩], st.2) }

/-- A visitor who enters what is given, and always wants to go on. -/
def keepOn (records : Collection) : Action Entries Bool := fun st =>
  (.ok true, st.1, st.2 ++ [(records.items, .ok true)])

theorem from_keepOn (records : Collection) (st : Entries) :
    ((keepOn records).from_ st).1 = .ok true := rfl

theorem serves_entries {s : Selection Entries} (heager : s.eager = []) {size : UInt64}
    {rows : List Row} {answer : String → List Row}
    (h : ∀ page stmt, s.pageStatement .postgres size page = .ok stmt →
      answer stmt.sql = (rows.drop (Query.pageOffset page size).toNat).take size.toNat) :
    entries.Serves s (entering answer) size rows keepOn where
  eager := heager
  answers := by
    intro page stmt hstmt st
    refine ⟨UInt64.ofNat (answer stmt.sql).length, (st.1 ++ [stmt], st.2), ?_, rfl, rfl⟩
    rw [s.cut_page, ← h page stmt hstmt]
    rfl
  visits := by
    intro records st r st' hrun
    cases hrun
    exact ⟨rfl, rfl⟩
  observes := fun _ _ => ⟨rfl, rfl⟩

abbrev letters : Selection Entries := .all { table := "letters" }

def letterRows : List Row := ["a", "b", "c"].map fun name => Keyed.ofList [("name", .text name)]

/-- The statement of all letters. -/
def lettersStatement : Statement := ⟨"SELECT * FROM letters", []⟩

/-- Answers the statements of the two pages that have letters. -/
def answerLetters (sql : String) : List Row :=
  if sql = (lettersStatement.within 2 0).sql then letterRows.take 2
  else if sql = (lettersStatement.within 2 2).sql then letterRows.drop 2
  else []

theorem lettersStatement_eq :
    letters.toQuery.entire.selectStatement .postgres = .ok lettersStatement := rfl

theorem serves_letters : entries.Serves letters (entering answerLetters) 2 letterRows keepOn := by
  refine serves_entries rfl fun page stmt hstmt => ?_
  have hoffset : (Query.pageOffset page 2).toNat =
      min ((page.toNat - 1) * 2) 0xFFFFFFFFFFFFFFFF := Word.toNat_saturate _
  rw [letters.pageStatement_eq, lettersStatement_eq] at hstmt
  obtain rfl : lettersStatement.within 2 (Query.pageOffset page 2).toNat = stmt :=
    Except.ok.inj hstmt
  generalize (Query.pageOffset page 2).toNat = offset at hoffset ⊢
  simp only [answerLetters, Statement.sql_within_inj]
  by_cases hfirst : offset = 0
  · rw [if_pos hfirst, hfirst]
    rfl
  · by_cases hsecond : offset = 2
    · rw [if_neg hfirst, if_pos hsecond, hsecond]
      rfl
    · have hbehind : letterRows.length ≤ offset := by
        have hlength : letterRows.length = 3 := rfl
        omega
      rw [if_neg hfirst, if_neg hsecond, List.drop_eq_nil_of_le hbehind, List.take_nil]

/-- Three letters, two to a page. -/
theorem chunk_covers_letters :
    let after := (letters.chunk (entering answerLetters) 5 2 keepOn).from_ ([], [])
    entries.Serves letters (entering answerLetters) 2 letterRows keepOn ∧ (2 : UInt64) ≠ 0 ∧
      letterRows.length < 2 ^ 64 ∧ letterRows.length / (2 : UInt64).toNat + 1 < 2 ^ 64 ∧
      letterRows.length / (2 : UInt64).toNat < 5 ∧
      (match letters.toQuery.entire.selectStatement .postgres with
      | .error cause => after.1 = .error cause ∧ entries.asked after.2 = entries.asked ([], []) ∧
          entries.given after.2 = entries.given ([], [])
      | .ok base => ∃ slices, Slices 2 letterRows slices ∧
          entries.Covers letters keepOn (fun i => base.within 2 (i * 2)) slices 2 ([], [])
            after) := by
  intro after
  have hsize : (2 : UInt64) ≠ 0 := by decide
  have hlength : letterRows.length < 2 ^ 64 := by decide
  have hpages : letterRows.length / (2 : UInt64).toNat + 1 < 2 ^ 64 := by decide
  have hbound : letterRows.length / (2 : UInt64).toNat < 5 := by decide
  exact ⟨serves_letters, hsize, hlength, hpages, hbound,
    serves_letters.chunk_covers hsize hlength hpages hbound ([], [])⟩

/-- A selection with an operator that is not accepted. -/
abbrev invalidLetters : Selection Entries :=
  letters.refine (·.filter .and (.compare "name" "bad" (.value .null)))

theorem invalidLetters_refused (size page : UInt64) : ∃ cause,
    invalidLetters.pageStatement .postgres size page = .error cause := by
  rw [invalidLetters.pageStatement_eq]
  exact ⟨_, rfl⟩

theorem serves_invalidLetters :
    entries.Serves invalidLetters (entering fun _ => []) 2 [] keepOn := by
  refine serves_entries rfl fun page stmt hstmt => ?_
  obtain ⟨cause, hcause⟩ := invalidLetters_refused 2 page
  rw [hcause] at hstmt
  cases hstmt

theorem asked_invalidLetters (bound : Nat) : entries.asked
    ((invalidLetters.chunk (entering fun _ => []) bound 2 keepOn).from_ ([], [])).2 = [] := by
  obtain ⟨cause, hcause⟩ := invalidLetters_refused 2 1
  have hchunk : invalidLetters.chunk (entering fun _ => []) bound 2 keepOn =
      invalidLetters.chunksFrom (entering fun _ => []) 2 keepOn bound 1 :=
    if_neg (by decide)
  rw [hchunk]
  cases bound with
  | zero => rfl
  | succ bound =>
    have hrefused := Serves.from_refused (c := entering fun _ => []) hcause ([], [])
    rw [Selection.chunksFrom, Action.from_bind, hrefused]
    rfl

/-- Every page of one row is before the last number there is. -/
theorem pageOffset_one_lt (page : UInt64) :
    (Query.pageOffset page 1).toNat < 0xFFFFFFFFFFFFFFFF := by
  have hpage := page.toNat_lt
  have hoffset : (Query.pageOffset page 1).toNat =
      min ((page.toNat - 1) * 1) 0xFFFFFFFFFFFFFFFF := Word.toNat_saturate _
  omega

section

variable {n : Nat} (hn : n = 0xFFFFFFFFFFFFFFFF) {row : Row}

include hn

theorem serves_replicate :
    entries.Serves letters (entering fun _ => [row]) 1 (List.replicate n row) keepOn := by
  refine serves_entries rfl fun page stmt _ => ?_
  have hone : (1 : UInt64).toNat = 1 := rfl
  have hpage := pageOffset_one_lt page
  have hmin : min 1 (n - (Query.pageOffset page 1).toNat) = 1 := by omega
  rw [List.drop_replicate, List.take_replicate, hone, hmin]
  rfl

theorem from_replicate (bound : Nat) :
    ((letters.chunk (entering fun _ => [row]) bound 1 keepOn).from_ ([], [])).1 =
      .ok .unfinished := by
  refine (serves_replicate hn).from_endless lettersStatement_eq (by decide) (fun page => ?_)
    from_keepOn bound 1 ([], [])
  have hone : (1 : UInt64).toNat = 1 := rfl
  have hpage := pageOffset_one_lt page
  rw [List.drop_replicate, List.length_replicate, hone]
  omega

end

/-- No statement is asked for a selection that is refused, be there rows or not; and a run over as
many rows as there are numbers of pages, one to a page, does not end. -/
theorem chunk_asks_nothing_or_endlessly :
    (entries.Serves invalidLetters (entering fun _ => []) 2 [] keepOn ∧ ∀ bound, entries.asked
      ((invalidLetters.chunk (entering fun _ => []) bound 2 keepOn).from_ ([], [])).2 = []) ∧
    ∃ (rows : List Row) (row : Row), rows.length < 2 ^ 64 ∧
      entries.Serves letters (entering fun _ => [row]) 1 rows keepOn ∧ ∀ bound,
        ((letters.chunk (entering fun _ => [row]) bound 1 keepOn).from_ ([], [])).1 =
          .ok .unfinished := by
  obtain ⟨n, hn⟩ : ∃ n : Nat, n = 0xFFFFFFFFFFFFFFFF := exists_eq
  refine ⟨⟨serves_invalidLetters, asked_invalidLetters⟩,
    List.replicate n Keyed.empty, Keyed.empty, ?_, serves_replicate hn, from_replicate hn⟩
  rw [List.length_replicate]
  omega

end

end Ledger

end ActiveRow
