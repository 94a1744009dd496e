import ActiveRow.Source.Reader

/-!
# Runs of readers

What the readers of single lexemes and of groups give, and where they leave off, when what they
expect is there.

* `Place.advance_advance`: reading on from where reading has got to.
* `run_enter`: a group is gone into, up to its closing bracket.
* `run_taken`: what has been read is taken out.
-/

namespace ActiveRow.Source

theorem Place.advance_advance {p : Place} (ts ts' : List Lexeme) {rest : List Lexeme}
    (h : p.lexemes = ts ++ (ts' ++ rest)) :
    (p.advance (ts' ++ rest)).advance rest = p.advance rest := by
  have hread : (ts ++ (ts' ++ rest)).length - rest.length = (ts ++ ts').length := by
    simp only [List.length_append]
    omega
  have htake : (ts ++ (ts' ++ rest)).take ((ts ++ (ts' ++ rest)).length - rest.length) =
      ts ++ ts' := by
    rw [hread, ← List.append_assoc, List.take_left]
  simp only [advance, h, htake]
  simp

/-- What has been read up to there is added to what was read before. -/
theorem Place.read_advance {p : Place} {ts rest : List Lexeme} (h : p.lexemes = ts ++ rest) :
    (p.advance rest).read = p.read ++ ts := by
  simp [advance, h]

namespace Reader

variable {p : Place} {ts rest : List Lexeme}

theorem run_left : left.run p = .ok (p.lexemes, p) := rfl

theorem run_sign?_of_some {s : String} (h : signs? s.toList p.lexemes = some rest) :
    (sign? s).run p = .ok (true, p.advance rest) := by
  simp only [sign?, StateT.run_bind, run_left, ok_bind, h]
  rfl

theorem run_sign?_of_none {s : String} (h : signs? s.toList p.lexemes = none) :
    (sign? s).run p = .ok (false, p) := by
  simp only [sign?, StateT.run_bind, run_left, ok_bind, h]
  rfl

theorem run_sign {s : String} (h : signs? s.toList p.lexemes = some rest) :
    (sign s).run p = .ok ((), p.advance rest) := by
  simp only [sign, StateT.run_bind, run_left, ok_bind, h]
  rfl

theorem run_anyName {w : String} (h : p.lexemes = .name w :: ts) :
    anyName.run p = .ok (w, p.advance ts) := by
  have htail : p.lexemes.tail = ts := by rw [h, List.tail_cons]
  simp only [anyName, StateT.run_bind, run_left, ok_bind, h, next]
  rw [← htail]
  rfl

theorem run_text {value written : String} (h : p.lexemes = .text value written :: ts) :
    text.run p = .ok (value, p.advance ts) := by
  have htail : p.lexemes.tail = ts := by rw [h, List.tail_cons]
  simp only [text, StateT.run_bind, run_left, ok_bind, h, next]
  rw [← htail]
  rfl

/-- Goes into a group without brackets inside. -/
theorem run_enter {b b' : Bracket} (hts : ∀ t ∈ ts, !t.isBracket)
    (h : p.lexemes = .opens b :: (ts ++ .closes b' :: rest)) :
    (enter b).run p = .ok ({ p with lexemes := rest },
      { p with lexemes := ts, within := b, read := p.read ++ [.opens b] }) := by
  have hgroup : p.group? b = some
      ({ p with lexemes := ts, within := b, read := p.read ++ [.opens b] },
        { p with lexemes := rest }) := by
    simp only [Place.group?, h, if_true, groupEnd_append hts]
  simp only [enter, StateT.run_bind, StateT.run_get, pure_bind, hgroup]
  rfl

theorem run_leave (behind : Place) : (leave behind).run p = .ok ((), p.leave behind) := rfl

theorem run_taken {α : Type} {r : Reader α} {a : α} {p' : Place}
    (h : r.run { p with read := [] } = .ok (a, p')) :
    (taken r).run p = .ok ((a, p'.read), { p' with read := p.read }) := by
  have hrun : (taken r).run p =
      (r.run { p with read := [] }).bind fun (a, p') =>
        .ok ((a, p'.read), { p' with read := p.read }) := rfl
  rw [hrun, h]
  rfl

end Reader

end ActiveRow.Source
