import ActiveRow.Dialect
import ActiveRow.Fault
import ActiveRow.Query.Clause

/-!
# Statements

A statement is compiled to a list of pieces: text, places of bound values, and flaws found on the
way. Rendering numbers the places in order, so the bindings are the values of the places in the
order in which the text names them.

* `render_append`, `bindings_append`: pieces are rendered one after the other, the second part
  counting on from the first;
* `finish_of_sound`: pieces without a flaw always make a statement.
-/

namespace ActiveRow

/-- SQL text and the values of its placeholders, in order. -/
structure Statement where
  sql : String
  bindings : List Value

inductive Piece where
  | text (s : String)
  | slot (v : Value)
  | flaw (cause : Invalid)

/-- The mark of the `n`th place. -/
def Placeholder.mark : Placeholder → Nat → String
  | question, _ => "?"
  | numbered, n => "$" ++ Nat.repr n

namespace Piece

/-- The text of pieces whose places are numbered on from `used`. -/
def render (style : Placeholder) : Nat → List Piece → String
  | _, [] => ""
  | used, text s :: rest => s ++ render style used rest
  | used, slot _ :: rest => style.mark (used + 1) ++ render style (used + 1) rest
  | used, flaw _ :: rest => render style used rest

/-- The values of the places. -/
def bindings : List Piece → List Value
  | [] => []
  | slot v :: rest => v :: bindings rest
  | text _ :: rest => bindings rest
  | flaw _ :: rest => bindings rest

/-- The first flaw. -/
def firstFlaw? : List Piece → Option Invalid
  | [] => none
  | flaw cause :: _ => some cause
  | text _ :: rest => firstFlaw? rest
  | slot _ :: rest => firstFlaw? rest

theorem bindings_append (a b : List Piece) : bindings (a ++ b) = bindings a ++ bindings b := by
  induction a with
  | nil => rfl
  | cons p a ih => cases p <;> simp [bindings, ih]

theorem firstFlaw?_append (a b : List Piece) :
    firstFlaw? (a ++ b) = (firstFlaw? a).or (firstFlaw? b) := by
  induction a with
  | nil => rfl
  | cons p a ih => cases p <;> simp [firstFlaw?, ih]

theorem render_append (style : Placeholder) (b : List Piece) : ∀ (a : List Piece) (used : Nat),
    render style used (a ++ b) =
      render style used a ++ render style (used + (bindings a).length) b
  | [], used => by simp [render, bindings]
  | p :: a, used => by
    cases p <;>
      simp [render, bindings, render_append style b a, String.append_assoc, Nat.add_assoc,
        Nat.add_comm 1]

/-- The statement of pieces, or the first flaw among them. -/
def finish (style : Placeholder) (pieces : List Piece) : Except Fault Statement :=
  match firstFlaw? pieces with
  | some cause => .error (.validation cause)
  | none => .ok ⟨render style 0 pieces, bindings pieces⟩

theorem finish_of_sound (style : Placeholder) {pieces : List Piece}
    (h : firstFlaw? pieces = none) :
    finish style pieces = .ok ⟨render style 0 pieces, bindings pieces⟩ := by
  simp [finish, h]

/-- Lists of pieces with a separator between them. -/
def separated (separator : String) (parts : List (List Piece)) : List Piece :=
  List.intercalate [text separator] parts

/-- Places of values with commas between them. -/
def slots (values : List Value) : List Piece := separated ", " (values.map fun v => [slot v])

end Piece

/-! ### Raw fragments -/

namespace Raw

/-- Turns the question marks outside quotes into places of the next bindings. Gives the pieces and
the bindings that found no mark. -/
def scan : Bool → List Value → List Char → List Piece × List Value
  | _, vs, [] => ([], vs)
  | quoted, vs, c :: rest =>
    if c = '\'' then
      let (ps, left) := scan (!quoted) vs rest
      (.text (String.singleton c) :: ps, left)
    else match vs with
      | v :: more =>
        if c = '?' ∧ !quoted then
          let (ps, left) := scan quoted more rest
          (.slot v :: ps, left)
        else
          let (ps, left) := scan quoted vs rest
          (.text (String.singleton c) :: ps, left)
      | [] =>
        let (ps, left) := scan quoted [] rest
        (.text (String.singleton c) :: ps, left)

/-- A fragment without bindings stands as it is; else each binding needs a mark. -/
def pieces (r : Raw) : List Piece :=
  if r.bindings.isEmpty then [.text r.sql]
  else
    let (ps, left) := scan false r.bindings r.sql.toList
    if left.isEmpty then ps
    else ps ++ [.flaw (.markers r.sql r.bindings.length (r.bindings.length - left.length))]

end Raw

def Operand.pieces : Operand → List Piece
  | value v => [.slot v]
  | raw r => r.pieces

end ActiveRow
