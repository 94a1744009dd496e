import Mathlib.Data.List.Pairwise
import Mathlib.Order.Fin.Basic
import ActiveRow.Proofs.Action
import ActiveRow.Proofs.Selection.KeyedPage
import ActiveRow.Proofs.Selection.Table

/-!
# Chunks by key

Each chunk begins behind the last key of the one before it, so what happens to the table between two
statements cannot make a run repeat a row or pass one over.

* `Serves.answers`: each statement is answered by what its text says, from the table that it meets.
* `Serves.from_chunk`: the keys of one chunk.
* `Visited.continues`: what a chunk and the run behind it come to together.
* `Serves.chunkByKey_delivers`: what a run gives its visitor, whatever happens to the table.
-/

namespace ActiveRow

open Predicate

/-! ### Worlds -/

/-- What can be seen of the states that a run over chunks goes through: the table as it stands, the
tables that the statements for chunks have met, and the records that the visitor was given. Nothing
reads the last two; they are what a run leaves behind. -/
structure World (κ σ : Type) where
  table : σ → List (TableRow κ)
  met : σ → List (List (TableRow κ))
  given : σ → List Record

namespace World

section

variable {κ σ α β : Type} (w : World κ σ)

/-- An action that neither fetches nor visits chunks; its result is as `Φ` says. -/
def Quiet (Φ : α → Prop) (a : Action σ α) : Prop := ∀ st r st', a.from_ st = (r, st') →
  w.met st' = w.met st ∧ w.given st' = w.given st ∧ ∀ x, r = .ok x → Φ x

variable {w}

theorem Quiet.pure {Φ : α → Prop} {x : α} (h : Φ x) : w.Quiet Φ (pure x : Action σ α) := by
  intro st r st' hrun
  cases hrun
  exact ⟨rfl, rfl, fun _ hy => by cases hy; exact h⟩

theorem Quiet.ofExcept (r : Except Fault α) : w.Quiet (fun x => r = .ok x) (.ofExcept r) := by
  intro st r st' hrun
  cases hrun
  exact ⟨rfl, rfl, fun _ hx => hx⟩

theorem Quiet.bind {Φ : α → Prop} {Ψ : β → Prop} {a : Action σ α} {k : α → Action σ β}
    (ha : w.Quiet Φ a) (hk : ∀ x, Φ x → w.Quiet Ψ (k x)) : w.Quiet Ψ (a >>= k) := by
  intro st r st' hrun
  rw [Action.from_bind] at hrun
  rcases h : a.from_ st with ⟨x, st₁⟩
  obtain ⟨hmet, hgiven, hx⟩ := ha st x st₁ h
  rw [h] at hrun
  cases x with
  | error cause =>
    cases hrun
    exact ⟨hmet, hgiven, fun _ hy => nomatch hy⟩
  | ok x =>
    obtain ⟨hmet', hgiven', hy⟩ := hk x (hx x rfl) st₁ r st' hrun
    exact ⟨hmet'.trans hmet, hgiven'.trans hgiven, hy⟩

end

variable {κ σ : Type} [LinearOrder κ]

/-- Rows that a statement gives which asks for the first rows in the order of keys that pass these
words. -/
def FirstPassing (size : UInt64) (ws : List (Word Test)) (table rows : List (TableRow κ)) : Prop :=
  ∃ all : List (TableRow κ), all.Perm (table.filter fun row => row.verdict.passesWords ws) ∧
    all.Pairwise (·.key ≤ ·.key) ∧ rows = all.take size.toNat

/-- The first rows that pass the words of a chunk are rows that its query gives. -/
theorem gives_of_firstPassing {s : Selection σ} {size : UInt64} {last : Option Value}
    {table rows : List (TableRow κ)}
    (hrows : FirstPassing size (written (s.keyedPage size last).toQuery.wheres) table rows) :
    (s.keyedPage size last).toQuery.Gives s.keyColumn table rows := by
  obtain ⟨all, hperm, hsorted, rfl⟩ := hrows
  obtain ⟨ho, hl, hf⟩ := s.toQuery_keyedPage size last
  have hsame : (table.filter fun row => row.verdict.passesWords
        (written (s.keyedPage size last).toQuery.wheres)) =
      table.filter fun row => row.verdict.passes (s.keyedPage size last).toQuery.wheres :=
    List.filter_congr fun row _ => by
      rw [decide_eq_decide, Verdict.passes_iff_passesWords]
  refine ⟨all, hsame ▸ hperm, ?_, ?_⟩
  · rw [Query.Orders, ho]
    exact fun _ => hsorted
  · rw [Query.cut, hl, hf]

/-- How a world takes part in a run over the chunks of a selection; `value` gives the values of
keys. -/
structure Serves (w : World κ σ) (s : Selection σ) (c : Connection σ) (size : UInt64)
    (value : κ → Value) (visit : Collection → Action σ Bool) : Prop where
  distinct : ∀ st, ((w.table st).map TableRow.key).Nodup
  known : ∀ k, (value k).isNull = false
  /-- The key is shown of all rows or of none. -/
  shown : (∀ st, ∀ row ∈ w.table st, row.cells.get? s.model.primaryKey = some (value row.key)) ∨
    ∀ st, ∀ row ∈ w.table st, row.cells.get? s.model.primaryKey = none
  /-- The test for keys beyond a value goes by the order of keys. -/
  ordered : ∀ st, ∀ row ∈ w.table st, ∀ k, row.verdict.holds (s.beyond (value k)) ↔ k < row.key
  /-- The statement of a chunk is answered as it says, from the table that it meets. -/
  answers : ∀ (last : Option κ) (table : String), s.query.table = some table →
    let words := written (s.keyedPage size (last.map value)).toQuery.wheres
    let pieces := s.keyedPieces size table words
    ∀ st r st', (c.adapter.query (Piece.render c.dialect.placeholder 0 pieces)
        (Piece.bindings pieces)).from_ st = (r, st') →
      w.given st' = w.given st ∧ ∀ out, r = .ok out → w.met st' = w.met st ++ [w.table st] ∧
        ∃ rows, out.rows = rows.map TableRow.cells ∧ FirstPassing size words (w.table st) rows
  visits : ∀ records st r st', (visit records).from_ st = (r, st') →
    w.met st' = w.met st ∧ w.given st' = w.given st ++ records.items
  observes : ∀ e, w.Quiet (fun _ => True) (c.report e)
  /-- What loaders attach to records does not change their keys. -/
  loads : ∀ name ∈ s.eager, ∀ loader, s.loader? name = .ok loader → ∀ records,
    w.Quiet (fun loaded => loaded.map Record.knownKey? = records.map Record.knownKey?)
      (loader c name records)

namespace Serves

variable {w : World κ σ} {s : Selection σ} {c : Connection σ} {size : UInt64} {value : κ → Value}
variable {visit : Collection → Action σ Bool} (h : w.Serves s c size value visit)

include h

/-! ### Fetching a chunk -/

theorem quiet_loadAll : ∀ (names : List String), (∀ n ∈ names, n ∈ s.eager) → ∀ records,
    w.Quiet (fun loaded => loaded.map Record.knownKey? = records.map Record.knownKey?)
      (s.loadAll c names records)
  | [], _, _ => .pure rfl
  | n :: names, hn, records => by
    rw [Selection.loadAll]
    refine (Quiet.ofExcept _).bind fun loader hloader => (h.observes _).bind fun _ _ => ?_
    refine (h.loads n (hn n List.mem_cons_self) loader hloader records).bind fun loaded hl => ?_
    rw [← hl]
    exact quiet_loadAll names (fun n hm => hn n (List.mem_cons_of_mem _ hm)) loaded

/-- Records of rows have the keys of the rows. -/
theorem quiet_hydrate (rows : List Row) :
    w.Quiet (fun records : Collection => records.items.map Record.knownKey? =
        rows.map fun row => (row.get? s.model.primaryKey).filter fun v => !v.isNull)
      (s.hydrate c rows) := by
  have hkeys : (rows.map s.model.hydrate).map Record.knownKey? =
      rows.map fun row => (row.get? s.model.primaryKey).filter fun v => !v.isNull := by
    rw [List.map_map]; rfl
  unfold Selection.hydrate
  by_cases hnil : (rows.map s.model.hydrate).isEmpty = true
  · simp only [hnil, if_true]
    rw [List.isEmpty_iff.1 hnil] at hkeys
    exact .pure hkeys
  · simp only [hnil, Bool.false_eq_true, if_false]
    exact (h.quiet_loadAll s.eager (fun _ hn => hn) _).bind fun loaded hl => .pure (hl.trans hkeys)

/-- What is sent for a chunk is what the world answers. -/
theorem from_query {last : Option κ} {stmt : Statement}
    (hstmt : (s.keyedPage size (last.map value)).toQuery.selectStatement c.dialect = .ok stmt)
    {st st' : σ} {r : Except Fault Output}
    (hrun : (c.adapter.query stmt.sql stmt.bindings).from_ st = (r, st')) :
    w.given st' = w.given st ∧ ∀ out, r = .ok out → w.met st' = w.met st ++ [w.table st] ∧
      ∃ rows, out.rows = rows.map TableRow.cells ∧
        (s.keyedPage size (last.map value)).toQuery.Gives s.keyColumn (w.table st) rows := by
  obtain ⟨-, table, htable, rfl⟩ := Form.of_statement_eq_ok (f := .select) hstmt
  simp only [s.layout_keyedPage] at hrun
  obtain ⟨hgiven, hout⟩ := h.answers last table (s.table_keyedPage size _ ▸ htable) st r st' hrun
  refine ⟨hgiven, fun out hr => ?_⟩
  obtain ⟨hmet, rows, hrows, hfirst⟩ := hout out hr
  exact ⟨hmet, rows, hrows, gives_of_firstPassing hfirst⟩

/-- The rows of a chunk come from the table that its statement meets. -/
theorem from_rows {last : Option κ} {st st' : σ} {r : Except Fault (List Row)}
    (hrun : ((s.keyedPage size (last.map value)).toQuery.get c).from_ st = (r, st')) :
    w.given st' = w.given st ∧ ∀ rows, r = .ok rows → ∃ there found,
      w.met st' = w.met st ++ [w.table there] ∧ rows = found.map TableRow.cells ∧
        (s.keyedPage size (last.map value)).toQuery.Gives s.keyColumn (w.table there) found := by
  unfold Query.get at hrun
  cases hstmt : (s.keyedPage size (last.map value)).toQuery.selectStatement c.dialect with
  | error cause =>
    rw [hstmt] at hrun
    cases hrun
    exact ⟨rfl, fun _ hr => nomatch hr⟩
  | ok stmt =>
    rw [hstmt] at hrun
    change (c.select stmt).from_ st = (r, st') at hrun
    rw [Connection.select, Connection.from_dispatch, Adapter.from_rows] at hrun
    -- the statement is sent from where noting the event has led
    obtain ⟨hmet₁, hgiven₁, -⟩ := h.observes (.dispatching .select stmt.sql) st _ _ rfl
    rcases hq : (c.adapter.query stmt.sql stmt.bindings).from_
      (c.observe (.dispatching .select stmt.sql) st) with ⟨out, st₂⟩
    obtain ⟨hgiven, hout⟩ := h.from_query hstmt hq
    rw [hq] at hrun
    cases out with
    | error cause =>
      cases hrun
      obtain ⟨-, hgiven₂, -⟩ := h.observes (.failed .select cause) st₂ _ _ rfl
      exact ⟨hgiven₂.trans (hgiven.trans hgiven₁), fun _ hr => nomatch hr⟩
    | ok out =>
      cases hrun
      refine ⟨hgiven.trans hgiven₁, fun rows hr => ?_⟩
      cases hr
      obtain ⟨hmet, found, hrows, hgives⟩ := hout out rfl
      exact ⟨_, found, hmet.trans (congrArg (· ++ _) hmet₁), hrows, hgives⟩

variable (hr : ∀ link t, Clause.test link t ∈ s.query.wheres → comparesRaw t = false)

include hr

/-- The rows that pass the query of a chunk lie behind the last key and pass the selection. -/
theorem hasPassing_keyedPage (st : σ) (last : Option κ) (k : κ) :
    HasPassing (w.table st) (s.keyedPage size (last.map value)).toQuery.wheres k ↔
      (∀ l ∈ last, l < k) ∧ HasPassing (w.table st) s.toQuery.wheres k := by
  have hrow : ∀ row ∈ w.table st,
      (row.verdict.passes (s.keyedPage size (last.map value)).toQuery.wheres ↔
        (∀ l ∈ last, l < row.key) ∧ row.verdict.passes s.toQuery.wheres) := by
    intro row hrow
    rw [s.passes_keyedPage size hr, and_comm]
    cases last with
    | none => simp
    | some l => simp [h.ordered st row hrow l]
  constructor
  · rintro ⟨row, hin, rfl, hp⟩
    obtain ⟨hlast, hp⟩ := (hrow row hin).1 hp
    exact ⟨hlast, row, hin, rfl, hp⟩
  · rintro ⟨hlast, row, hin, rfl, hp⟩
    exact ⟨row, hin, rfl, (hrow row hin).2 ⟨hlast, hp⟩⟩

/-- **A chunk has the first keys behind the last one**, among the rows that pass the selection when
its statement is answered. Its records have these keys, unless the key is not shown. -/
theorem from_chunk {last : Option κ} {st st' : σ} {r : Except Fault Collection}
    (hrun : ((s.keyedPage size (last.map value)).get c).from_ st = (r, st')) :
    w.given st' = w.given st ∧ ∀ records, r = .ok records → ∃ table ks,
      w.met st' = w.met st ++ [table] ∧
        FirstKeys size.toNat
          (fun k => (∀ l ∈ last, l < k) ∧ HasPassing table s.toQuery.wheres k) ks ∧
        (records.items.map Record.knownKey? = ks.map (fun k => some (value k)) ∨
          records.items.map Record.knownKey? = ks.map fun _ => none) := by
  rw [Selection.get, Action.from_bind] at hrun
  rcases hrows : ((s.keyedPage size (last.map value)).toQuery.get c).from_ st with ⟨rows, st₁⟩
  obtain ⟨hgiven, hok⟩ := h.from_rows hrows
  rw [hrows] at hrun
  cases rows with
  | error cause =>
    cases hrun
    exact ⟨hgiven, fun _ hr => nomatch hr⟩
  | ok rows =>
    obtain ⟨there, found, hmet, rfl, hgives⟩ := hok rows rfl
    have hsame : (s.keyedPage size (last.map value)).hydrate c (found.map TableRow.cells) =
        s.hydrate c (found.map TableRow.cells) := s.hydrate_refine _ c _
    simp only [hsame] at hrun
    obtain ⟨hmet', hgiven', hkeys⟩ := h.quiet_hydrate _ _ _ _ hrun
    refine ⟨hgiven'.trans hgiven, fun records hrecords => ?_⟩
    obtain ⟨ho, hl, hf⟩ := s.toQuery_keyedPage size (last.map value)
    have hfirst := firstKeys_of_gives hgives ho hl hf (h.distinct there)
    have hpassing := funext fun k => propext (h.hasPassing_keyedPage hr there last k)
    rw [hpassing] at hfirst
    refine ⟨w.table there, found.map TableRow.key, hmet'.trans hmet, hfirst, ?_⟩
    rw [hkeys records hrecords, List.map_map, List.map_map, List.map_map]
    rcases h.shown with hshown | hshown
    · refine .inl (List.map_congr_left fun row hrow => ?_)
      simp [hshown there row (hgives.mem_table hrow), h.known]
    · refine .inr (List.map_congr_left fun row hrow => ?_)
      simp [hshown there row (hgives.mem_table hrow)]

end Serves

/-! ### Runs -/

section

variable (w : World κ σ) (s : Selection σ) (value : κ → Value)

/-- What a run from behind a key comes to. The records that the visitor was given have keys behind
it, each greater than the one before. When the last chunk was reached, the statements met tables
such that every key behind it that passes the selection in all of them was given. -/
def Delivers (last : Option κ) (st : σ) (after : Except Fault Selection.Ending × σ) : Prop :=
  ∃ (records : List Record) (ks : List κ),
    w.given after.2 = w.given st ++ records ∧
    records.map Record.knownKey? = ks.map (fun k => some (value k)) ∧
    ks.Pairwise (· < ·) ∧ (∀ k ∈ ks, ∀ l ∈ last, l < k) ∧
    (after.1 = .ok .complete → ∃ tables, w.met after.2 = w.met st ++ tables ∧
      ∀ k, (∀ l ∈ last, l < k) → (∀ table ∈ tables, HasPassing table s.toQuery.wheres k) → k ∈ ks)

/-- A chunk was fetched behind a key and given to the visitor. -/
structure Visited (size : UInt64) (last : Option κ) (st st' : σ) (ks : List κ) : Prop where
  given : ∃ records, w.given st' = w.given st ++ records ∧
    records.map Record.knownKey? = ks.map fun k => some (value k)
  met : ∃ table, w.met st' = w.met st ++ [table] ∧ FirstKeys size.toNat
    (fun k => (∀ l ∈ last, l < k) ∧ HasPassing table s.toQuery.wheres k) ks

end

section

variable {w : World κ σ} {s : Selection σ} {value : κ → Value} {size : UInt64} {last : Option κ}
variable {st st' : σ} {ks : List κ}

/-- Nothing was given, and the last chunk was not reached. -/
theorem Delivers.nothing {after : Except Fault Selection.Ending × σ}
    (hgiven : w.given after.2 = w.given st) (hend : after.1 ≠ .ok .complete) :
    w.Delivers s value last st after :=
  ⟨[], [], by rw [hgiven, List.append_nil], rfl, .nil, by simp, fun h => absurd h hend⟩

/-- A chunk was given and the run ended; if it was the last one, it was short. -/
theorem Visited.ends (h : w.Visited s value size last st st' ks)
    {r : Except Fault Selection.Ending} (hr : r = .ok .complete → ks.length < size.toNat) :
    w.Delivers s value last st (r, st') := by
  obtain ⟨⟨records, hgiven, hkeys⟩, table, hmet, hfirst⟩ := h
  refine ⟨records, ks, hgiven, hkeys, hfirst.ascending, fun k hk => (hfirst.sound k hk).1,
    fun hend => ⟨[table], hmet, fun k hk hpass => ?_⟩⟩
  exact hfirst.mem_of_short (hr hend) ⟨hk, hpass table List.mem_cons_self⟩

/-- **One chunk and a run behind it.** A key that the chunk does not have lies behind all of its
keys, so it is left to the run from behind the last of them. -/
theorem Visited.continues (h : w.Visited s value size last st st' ks) (hne : ks ≠ [])
    {after : Except Fault Selection.Ending × σ}
    (hrest : w.Delivers s value (some (ks.getLast hne)) st' after) :
    w.Delivers s value last st after := by
  obtain ⟨⟨records, hgiven, hkeys⟩, table, hmet, hfirst⟩ := h
  obtain ⟨records', ks', hgiven', hkeys', hlt', hbehind', htables'⟩ := hrest
  have hlast : ∀ k ∈ ks, k ≤ ks.getLast hne := fun k hk =>
    (hfirst.ascending.imp le_of_lt).rel_getLast_of_rel_getLast_getLast hk le_rfl
  have hbehind : ∀ k ∈ ks', ks.getLast hne < k := fun k hk => hbehind' k hk _ rfl
  refine ⟨records ++ records', ks ++ ks', ?_, ?_, ?_, ?_, ?_⟩
  · rw [hgiven', hgiven, List.append_assoc]
  · rw [List.map_append, List.map_append, hkeys, hkeys']
  · exact List.pairwise_append.2 ⟨hfirst.ascending, hlt', fun k hk k' hk' =>
      lt_of_le_of_lt (hlast k hk) (hbehind k' hk')⟩
  · intro k hk l hl
    rcases List.mem_append.1 hk with hk | hk
    · exact (hfirst.sound k hk).1 l hl
    · exact lt_trans ((hfirst.sound _ (List.getLast_mem hne)).1 l hl) (hbehind k hk)
  · intro hend
    obtain ⟨tables, hmet', hall⟩ := htables' hend
    refine ⟨table :: tables, by rw [hmet', hmet, List.append_assoc]; rfl, fun k hk hpass => ?_⟩
    rw [List.mem_append]
    rcases hfirst.reaches k ⟨hk, hpass table List.mem_cons_self⟩ with hin | ⟨-, hgt⟩
    · exact .inl hin
    · refine .inr (hall k ?_ fun t ht => hpass t (List.mem_cons_of_mem _ ht))
      intro l hl
      cases hl
      exact hgt _ (List.getLast_mem hne)

/-- A chunk that counts as short has fewer keys than were asked for. -/
theorem length_lt_of_count {n : Nat} (hle : n ≤ size.toNat) (h : UInt64.ofNat n < size) :
    n < size.toNat := by
  have hlt := UInt64.lt_iff_toNat_lt.1 h
  rw [UInt64.toNat_ofNat'] at hlt
  have := size.toNat_lt
  omega

variable {c : Connection σ} {visit : Collection → Action σ Bool}

/-- A chunk that was fetched is given to the visitor, who ends the run or leaves the rest to it. -/
theorem Serves.delivers_visit (h : w.Serves s c size value visit) {table : List (TableRow κ)}
    (hgiven : w.given st' = w.given st) (hmet : w.met st' = w.met st ++ [table])
    (hfirst : FirstKeys size.toNat
      (fun k => (∀ l ∈ last, l < k) ∧ HasPassing table s.toQuery.wheres k) ks)
    {records : Collection}
    (hkeys : records.items.map Record.knownKey? = ks.map fun k => some (value k)) (hne : ks ≠ [])
    {next : Action σ Selection.Ending}
    (hnext : ∀ st, w.Delivers s value (some (ks.getLast hne)) st (next.from_ st)) (e : Event) :
    w.Delivers s value last st ((c.report e >>= fun _ => visit records >>= fun goOn =>
      Selection.proceed goOn (UInt64.ofNat records.size) size next).from_ st') := by
  have hreport : (c.report e).from_ st' = (.ok (), c.observe e st') := rfl
  obtain ⟨hmet₂, hgiven₂, -⟩ := h.observes e _ _ _ hreport
  rw [Action.from_bind, hreport]
  simp only [Action.from_bind]
  rcases hvisit : (visit records).from_ (c.observe e st') with ⟨r, st₃⟩
  obtain ⟨hmet₃, hgiven₃⟩ := h.visits records _ _ _ hvisit
  have hvisited : w.Visited s value size last st st₃ ks :=
    ⟨⟨records.items, by rw [hgiven₃, hgiven₂, hgiven], hkeys⟩, table,
      by rw [hmet₃, hmet₂, hmet], hfirst⟩
  cases r with
  | error cause => exact hvisited.ends nofun
  | ok goOn =>
    have hlen : records.items.length = ks.length := by simpa using congrArg List.length hkeys
    simp only [Selection.proceed]
    by_cases hstop : goOn = false
    · simp only [hstop, Bool.not_false, if_true]
      exact hvisited.ends nofun
    · by_cases hshort : UInt64.ofNat records.size < size
      · simp only [hstop, Bool.not_eq_true', hshort, if_true]
        exact hvisited.ends fun _ => length_lt_of_count hfirst.length_le (hlen ▸ hshort)
      · simp only [hstop, Bool.not_eq_true', if_false, hshort]
        exact hvisited.continues hne (hnext st₃)

/-- **Runs from behind a key** deliver, by induction on the bound. -/
theorem Serves.delivers_from (h : w.Serves s c size value visit)
    (hr : ∀ link t, Clause.test link t ∈ s.query.wheres → comparesRaw t = false)
    (hsize : size ≠ 0) : ∀ (bound : Nat) (last : Option κ) (st : σ),
      w.Delivers s value last st
        ((s.keyedChunksFrom c size visit bound (last.map value)).from_ st) := by
  intro bound
  induction bound with
  | zero => exact fun last st => .nothing rfl nofun
  | succ bound ih =>
    intro last st
    rw [Selection.keyedChunksFrom, Action.from_bind]
    rcases hget : ((s.keyedPage size (last.map value)).get c).from_ st with ⟨r, st₁⟩
    obtain ⟨hgiven, hchunk⟩ := h.from_chunk hr hget
    cases r with
    | error cause => exact .nothing hgiven nofun
    | ok records =>
      obtain ⟨table, ks, hmet, hfirst, hkeys⟩ := hchunk records rfl
      have hlen : records.items.length = ks.length := by
        rcases hkeys with hkeys | hkeys <;> simpa using congrArg List.length hkeys
      simp only
      by_cases hnil : records.isEmpty = true
      · -- nothing lies behind the last key
        rw [if_pos hnil]
        have hks : ks = [] := by
          rw [← List.length_eq_zero_iff, ← hlen, List.length_eq_zero_iff]
          exact List.isEmpty_iff.1 hnil
        subst hks
        have hvisited : w.Visited s value size last st st₁ [] :=
          ⟨⟨[], by rw [hgiven, List.append_nil], rfl⟩, table, hmet, hfirst⟩
        exact hvisited.ends fun _ => UInt64.pos_iff_ne_zero.2 hsize
      · have hne : ks ≠ [] := by
          rintro rfl
          exact hnil (List.isEmpty_iff.2 (List.length_eq_zero_iff.1 hlen))
        rw [if_neg hnil, Action.from_bind, Action.from_ofExcept]
        rcases hkeys with hkeys | hkeys
        · rw [s.lastKey_eq hne hkeys]
          exact h.delivers_visit hgiven hmet hfirst hkeys hne (ih (some (ks.getLast hne))) _
        · obtain ⟨cause, hcause⟩ := s.lastKey_hidden hkeys
          rw [hcause]
          exact .nothing hgiven nofun

/-- **Chunks by key deliver every row once.** Whatever happens to the table between statements, a
run gives the visitor records with keys each of which is greater than the one before. When it ends
by itself, at the last chunk, it has given every key that passes the selection in all the tables
that its statements met. -/
theorem Serves.chunkByKey_delivers (h : w.Serves s c size value visit)
    (hr : ∀ link t, Clause.test link t ∈ s.query.wheres → comparesRaw t = false)
    (hsize : size ≠ 0) (bound : Nat) (st : σ) :
    let after := (s.chunkByKey c bound size visit).from_ st
    ∃ (records : List Record) (ks : List κ),
      w.given after.2 = w.given st ++ records ∧
      records.map Record.knownKey? = ks.map (fun k => some (value k)) ∧
      ks.Pairwise (· < ·) ∧
      (after.1 = .ok .complete → ∃ tables, w.met after.2 = w.met st ++ tables ∧
        ∀ k, (∀ table ∈ tables, HasPassing table s.toQuery.wheres k) → k ∈ ks) := by
  obtain ⟨records, ks, hgiven, hkeys, hlt, -, htables⟩ := h.delivers_from hr hsize bound none st
  rw [Selection.chunkByKey, if_neg hsize]
  refine ⟨records, ks, hgiven, hkeys, hlt, fun hend => ?_⟩
  obtain ⟨tables, hmet, hall⟩ := htables hend
  exact ⟨tables, hmet, fun k hk => hall k (by simp) hk⟩

end

/-! ### A world -/

section

/-- The value of a key. -/
def digit (k : Fin 4) : Value := .int (Int64.ofNat k)

/-- Whether a key is greater than a value that is a number. -/
def exceeds (key : Fin 4) : Value → Bool
  | .int n => n < Int64.ofNat key
  | _ => true

theorem exceeds_digit : ∀ j k : Fin 4, exceeds j (digit k) = true ↔ k < j := by decide

/-- A row that passes a comparison with a number when its key is greater, and all other tests. -/
def digitRow (key : Fin 4) : TableRow (Fin 4) where
  key
  cells := Keyed.ofList [("id", digit key)]
  verdict :=
    { chain := fun
        | .compare _ _ (.value v) => ⟨exceeds key v, []⟩
        | _ => ⟨true, []⟩
      single := fun t _ => by split <;> rfl }

/-- The keys of a table that has answered this many statements: one is deleted, one inserted. -/
def digits : Nat → List (Fin 4)
  | 0 => [0, 1, 2]
  | _ => [0, 2, 3]

theorem ascending_digits : ∀ n, (digits n).Pairwise (· < ·)
  | 0 => by decide
  | n + 1 => (by decide : [0, 2, 3].Pairwise fun a b : Fin 4 => a < b)

/-- The tables that were met, and the records that were given. -/
abbrev Journal := List (List (TableRow (Fin 4))) × List Record

def digitWorld : World (Fin 4) Journal :=
  ⟨fun st => (digits st.1.length).map digitRow, Prod.fst, Prod.snd⟩

/-- Answers every statement with the first two rows whose keys exceed all values that it binds. -/
def digitConnection : Connection Journal := .ofAdapter
  { dialect := .postgres
    driver := "pg"
    connect := pure ()
    disconnect := pure ()
    begin_ := pure ()
    commit := pure ()
    rollback := pure ()
    query := fun _ bindings st =>
      let table := digitWorld.table st
      let rows := table.filter fun row => bindings.all (exceeds row.key)
      (.ok (.ofRows ((rows.take 2).map TableRow.cells)), st.1 ++ [table], st.2) }

/-- A visitor who never stops. -/
def journalVisit (records : Collection) : Action Journal Bool := fun st =>
  (.ok true, st.1, st.2 ++ records.items)

abbrev allDigits : Selection Journal := .all { table := "digits" }

/-- The values that the statement of a chunk binds. -/
theorem bindings_digits (last : Option (Fin 4)) (table : String) :
    Piece.bindings (allDigits.keyedPieces 2 table
        (written (allDigits.keyedPage 2 (last.map digit)).toQuery.wheres)) =
      last.toList.map digit := by cases last <;> rfl

/-- The rows that pass the words of a chunk are those whose keys exceed what it binds. -/
theorem filter_digits (last : Option (Fin 4)) (keys : List (Fin 4)) :
    ((keys.map digitRow).filter fun row => row.verdict.passesWords
        (written (allDigits.keyedPage 2 (last.map digit)).toQuery.wheres)) =
      (keys.map digitRow).filter fun row => (last.toList.map digit).all (exceeds row.key) := by
  refine List.filter_congr fun row hrow => ?_
  obtain ⟨j, -, rfl⟩ := List.mem_map.1 hrow
  have hall : (digitRow j).verdict.passes allDigits.toQuery.wheres := .inl rfl
  have hbeyond : ∀ v, (digitRow j).verdict.holds (allDigits.beyond v) ↔ exceeds j v = true :=
    fun v => (digitRow j).verdict.holds_iff rfl
  have hpasses := allDigits.passes_keyedPage 2 (by simp [Selection.all, Query.on])
    (digitRow j).verdict (last.map digit)
  rw [Bool.eq_iff_iff, decide_eq_true_iff, ← Verdict.passes_iff_passesWords, hpasses]
  have hkey : (digitRow j).key = j := rfl
  cases last <;> simp [hall, hbeyond, hkey]

theorem serves_digits : digitWorld.Serves allDigits digitConnection 2 digit journalVisit where
  distinct := fun st => by
    rw [digitWorld, List.map_map, List.Nodup, List.pairwise_map]
    exact (ascending_digits _).imp ne_of_lt
  known := fun _ => rfl
  shown := .inl fun st row hrow => by
    obtain ⟨k, -, rfl⟩ := List.mem_map.1 hrow
    rfl
  ordered := fun st row hrow k => by
    obtain ⟨j, -, rfl⟩ := List.mem_map.1 hrow
    exact ((digitRow j).verdict.holds_iff rfl).trans (exceeds_digit j k)
  answers := fun last table _ => by
    intro words pieces st r st' hrun
    have hbindings : Piece.bindings pieces = last.toList.map digit := bindings_digits last table
    rw [hbindings] at hrun
    cases hrun
    refine ⟨rfl, fun out hout => ⟨rfl, ?_⟩⟩
    cases hout
    have hsorted : (digitWorld.table st).Pairwise (·.key ≤ ·.key) := by
      rw [digitWorld, List.pairwise_map]
      exact (ascending_digits _).imp le_of_lt
    refine ⟨_, ?_, _, .refl _, hsorted.filter _, rfl⟩
    rw [digitWorld, filter_digits]
    rfl
  visits := fun _ st r st' hrun => by
    cases hrun
    exact ⟨rfl, rfl⟩
  observes := fun _ st r st' hrun => by
    cases hrun
    exact ⟨rfl, rfl, fun _ _ => trivial⟩
  loads := fun _ h => absurd h List.not_mem_nil

/-- A run over the digits, whose table loses a row and gets another behind the first chunk. -/
theorem chunkByKey_delivers_digits :
    digitWorld.Serves allDigits digitConnection 2 digit journalVisit ∧
      (∀ link t, Clause.test link t ∈ allDigits.query.wheres → comparesRaw t = false) ∧
      (2 : UInt64) ≠ 0 ∧
      let after := (allDigits.chunkByKey digitConnection 5 2 journalVisit).from_ ([], [])
      after.1 = .ok .complete ∧ ∃ (records : List Record) (ks : List (Fin 4)),
        digitWorld.given after.2 = digitWorld.given ([], []) ++ records ∧
        records.map Record.knownKey? = ks.map (fun k => some (digit k)) ∧
        ks.Pairwise (· < ·) ∧
        (after.1 = .ok .complete → ∃ tables,
          digitWorld.met after.2 = digitWorld.met ([], []) ++ tables ∧
          ∀ k, (∀ table ∈ tables, HasPassing table allDigits.toQuery.wheres k) → k ∈ ks) := by
  have hr : ∀ link t, Clause.test link t ∈ allDigits.query.wheres → comparesRaw t = false := by
    simp [Selection.all, Query.on]
  have hsize : (2 : UInt64) ≠ 0 := by decide
  refine ⟨serves_digits, hr, hsize, ?_, ?_⟩
  · rfl
  · exact serves_digits.chunkByKey_delivers hr hsize 5 ([], [])

end

end World

end ActiveRow
