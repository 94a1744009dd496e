import ActiveRow.Proofs.Compilation

/-!
# Places of bound values

The text of a statement is fragments of text with the mark of one place between any two that
follow each other. The fragments and the values come from the pieces alone, so dialects that lay a
statement out in the same pieces differ in the marks and in nothing else.

* `render_eq_interleave`: rendered pieces are their fragments with the marks between them.
* `statement_aligned`: a query compiled for PostgreSQL and for a dialect with question marks gives
  one fault, or the same values and the same fragments.
-/

namespace ActiveRow

/-- Fragments of text with marks between them, the first of which is the `n`th. -/
def interleave (mark : Nat → String) : Nat → String → List String → String
  | _, head, [] => head
  | n, head, next :: rest => head ++ mark n ++ interleave mark (n + 1) next rest

/-- Two outcomes of compiling that differ at most in how places are marked: the same fault, or
fragments with `$1`, `$2`, ... and with question marks between them and the same values, one for
each mark. -/
def Aligned (numbered questioned : Except Fault Statement) : Prop :=
  (∃ cause, numbered = .error cause ∧ questioned = .error cause) ∨
    ∃ (head : String) (rest : List String) (values : List Value),
      rest.length = values.length ∧
        numbered = .ok ⟨interleave (fun n => "$" ++ Nat.repr n) 1 head rest, values⟩ ∧
        questioned = .ok ⟨interleave (fun _ => "?") 1 head rest, values⟩

theorem interleave_append (mark : Nat → String) (n : Nat) (s head : String) (rest : List String) :
    interleave mark n (s ++ head) rest = s ++ interleave mark n head rest := by
  cases rest with
  | nil => rfl
  | cons next rest => simp only [interleave, String.append_assoc]

namespace Piece

/-- The text before the first place, and the text behind each place. -/
def fragments : List Piece → String × List String
  | [] => ("", [])
  | text s :: rest => (s ++ (fragments rest).1, (fragments rest).2)
  | slot _ :: rest => ("", (fragments rest).1 :: (fragments rest).2)
  | flaw _ :: rest => fragments rest

/-- There is one fragment behind each place. -/
theorem length_fragments (ps : List Piece) : (fragments ps).2.length = (bindings ps).length := by
  induction ps with
  | nil => rfl
  | cons p ps ih => cases p <;> simp [fragments, bindings, ih]

/-- **Text is fragments and marks.** Pieces are rendered as their fragments, with the marks of
places numbered on from `used` between them. -/
theorem render_eq_interleave (style : Placeholder) (ps : List Piece) : ∀ used,
    render style used ps =
      interleave style.mark (used + 1) (fragments ps).1 (fragments ps).2 := by
  induction ps with
  | nil => intro used; rfl
  | cons p ps ih =>
    intro used
    cases p with
    | text s => rw [render, fragments, interleave_append, ih]
    | slot v => rw [render, fragments, interleave, ih, String.empty_append]
    | flaw cause => rw [render, fragments, ih]

/-- The same pieces are finished alike in both styles. -/
theorem finish_aligned (ps : List Piece) : Aligned (finish .numbered ps) (finish .question ps) := by
  unfold finish
  cases hf : firstFlaw? ps with
  | some cause => exact .inl ⟨_, rfl, rfl⟩
  | none =>
    refine .inr ⟨(fragments ps).1, (fragments ps).2, bindings ps, length_fragments ps, ?_, ?_⟩
    · rw [render_eq_interleave]; rfl
    · rw [render_eq_interleave]; rfl

end Piece

/-! ### Lists of values -/

/-- The marks of places behind `used` others. -/
def marks (style : Placeholder) (used n : Nat) : List String :=
  (List.range n).map fun i => style.mark (used + i + 1)

theorem marks_succ (style : Placeholder) (used n : Nat) :
    marks style used (n + 1) = style.mark (used + 1) :: marks style (used + 1) n := by
  have hshift : ∀ i, used + (i + 1) + 1 = used + 1 + i + 1 := by
    intro i
    omega
  simp only [marks, List.range_succ_eq_map, List.map_cons, List.map_map, Function.comp_def,
    Nat.succ_eq_add_one, hshift, Nat.add_zero]

namespace Piece

theorem bindings_slots (vs : List Value) : bindings (slots vs) = vs := by
  rw [slots, bindings_separated, List.flatMap_map]
  exact List.flatMap_singleton' vs

theorem firstFlaw?_slots (vs : List Value) : firstFlaw? (slots vs) = none := by
  rw [slots, firstFlaw?_separated, List.findSome?_eq_none_iff]
  intro p hp
  obtain ⟨v, -, rfl⟩ := List.mem_map.1 hp
  rfl

theorem render_slots (style : Placeholder) (vs : List Value) : ∀ used,
    render style used (slots vs) = String.intercalate ", " (marks style used vs.length) := by
  have heach : ∀ used,
      renderEach style used (vs.map fun v => [slot v]) = marks style used vs.length := by
    induction vs with
    | nil => intro used; rfl
    | cons v vs ih =>
      intro used
      have hrest : renderEach style (used + 1) (vs.map fun v => [slot v]) =
          marks style (used + 1) vs.length := ih (used + 1)
      rw [List.length_cons, marks_succ, ← hrest]
      simp [renderEach, render, bindings]
  intro used
  rw [slots, render_separated, heach]

end Piece

/-! ### Both styles -/

/-- **Placeholders stay aligned.** In every form but the emptying of a table, a query is refused
with one fault for PostgreSQL and for a dialect of question marks, or it is compiled to the same
fragments of text with the same values at the places between them. Only MySQL needs that the query
has a limit or no offset. -/
theorem statement_aligned (q : Query) {f : Form} (hf : f ≠ .truncate) {d : Dialect}
    (hd : d ≠ .postgres) (hx : d = .mysql → q.limit.isSome ∨ q.offset = none) :
    Aligned (f.statement .postgres q) (f.statement d q) := by
  have hstyle : d.placeholder = .question := by cases d <;> first | rfl | exact absurd rfl hd
  rw [Form.statement_eq, Form.statement_eq, hstyle]
  cases f.check q with
  | error cause => exact .inl ⟨cause, rfl, rfl⟩
  | ok table =>
    show Aligned (Piece.finish .numbered (f.layout .postgres table q))
      (Piece.finish .question (f.layout d table q))
    rw [Form.layout_eq table hf hx]
    exact Piece.finish_aligned _

/-- A page of rows that pass a test, for MySQL. -/
theorem statement_aligned_page :
    let q := (((Query.on "t").whereEq "a" (.int 7)).filter .or
      (.raw ⟨"b > ?", [.int 1]⟩)).forPage 3 5
    Form.select ≠ .truncate ∧ Dialect.mysql ≠ .postgres ∧
      (Dialect.mysql = .mysql → q.limit.isSome ∨ q.offset = none) ∧
      Aligned (Form.select.statement .postgres q) (Form.select.statement .mysql q) :=
  have hf : Form.select ≠ .truncate := by simp
  have hd : Dialect.mysql ≠ .postgres := by decide
  ⟨hf, hd, fun _ => .inl rfl, statement_aligned _ hf hd fun _ => .inl rfl⟩

end ActiveRow
