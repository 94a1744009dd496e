import ActiveRow.Proofs.Source.Reader
import ActiveRow.Source.Type

/-!
# Paths to a name

A path without arguments is names with pairs of colons between them. It is read name by name, and
the last name is what the path leads to.

* `pathStep_yield`, `pathStep_done`: the step for one more name, and for the end.
* `modelPath_run_of_spells`: a path is read as it is spelled, with its last name.
-/

namespace ActiveRow.Source

open Reader

/-- Names that may stand before others in a path. -/
def IsPathName (w : String) : Prop := w ∉ reserved ∨ w ∈ ["crate", "self", "super"]

/-- Lexemes that are names with pairs of colons between them, the last of which is `last`. -/
inductive Spells (last : String) : List Lexeme → Prop
  | name : Spells last [.name last]
  | within {w : String} (hw : IsPathName w) (joined : Bool) {ts : List Lexeme}
      (h : Spells last ts) : Spells last (.name w :: .sign ':' true :: .sign ':' joined :: ts)

theorem Spells.exists_cons {last : String} {ts : List Lexeme} (h : Spells last ts) :
    ∃ w rest, ts = .name w :: rest := by
  cases h with
  | name => exact ⟨_, _, rfl⟩
  | within => exact ⟨_, _, rfl⟩

/-- No arguments in angle brackets follow, neither here nor behind a pair of colons. -/
def NoArguments (ts : List Lexeme) : Prop :=
  startsWith "<" ts = false ∧ ((signs? "::".toList ts).map (startsWith "<")).getD false = false

theorem noArguments_of_end {rest : List Lexeme} (ha : startsWith "<" rest = false)
    (hc : startsWith "::" rest = false) : NoArguments rest := by
  have hnone : signs? "::".toList rest = none := by simpa [startsWith] using hc
  exact ⟨ha, by rw [hnone]; rfl⟩

theorem noArguments_of_spells {last : String} {ts rest : List Lexeme} (h : Spells last ts)
    (joined : Bool) : NoArguments (.sign ':' true :: .sign ':' joined :: (ts ++ rest)) := by
  obtain ⟨w, ts', rfl⟩ := h.exists_cons
  exact ⟨rfl, rfl⟩

/-! ### Names -/

theorem segment_run_of {i : Inner} {w : String} {p : Place} {ts : List Lexeme} (hw : IsPathName w)
    (hp : p.lexemes = .name w :: ts) (hts : NoArguments ts) :
    (segment i false).run p = .ok ((w, .none), p.advance ts) := by
  obtain ⟨ha, hbehind⟩ : startsWith "<" ts = false ∧
    ((signs? [':', ':'] ts).map (startsWith "<")).getD false = false := hts
  rcases hw with h | h
  · have h₁ : startsWord ["super", "self", "crate", "try"] (.name w :: ts) = false :=
      startsWord_eq_false h (by decide)
    have h₂ : startsWord ["Self"] (.name w :: ts) = false := startsWord_eq_false h (by decide)
    simp [segment, left, hp, h₁, h₂, name_run h hp, ok_bind, Place.advance, ha, hbehind]
    rfl
  · have h₁ : startsWord ["super", "self", "crate", "try"] (.name w :: ts) = true := by
      simp only [List.mem_cons, List.not_mem_nil, or_false] at h
      rcases h with rfl | rfl | rfl <;> rfl
    simp [segment, left, hp, h₁, anyName, next]
    rfl

/-- One more name of a path. -/
def pathStep (i : Inner) (q : Path) : Reader (ForInStep Path) := do
  let ts ← left
  if startsWith "::" ts && !startsGroupArguments ts then
    sign "::"
    let (w, arguments) ← segment i false
    return .yield (q.append w arguments)
  return .done q

theorem pathRest_eq (i : Inner) (q : Path) : pathRest i false q = repeating (pathStep i) q := rfl

theorem pathStep_done {i : Inner} {q : Path} {p : Place} (h : startsWith "::" p.lexemes = false) :
    (pathStep i q).run p = .ok (.done q, p) := by
  simp only [pathStep, StateT.run_bind, run_left, ok_bind, h, Bool.false_and, Bool.false_eq_true,
    if_false]
  rfl

theorem pathStep_yield {i : Inner} {q : Path} {p : Place} {joined : Bool} {w : String}
    {ts : List Lexeme} (hw : IsPathName w)
    (hp : p.lexemes = .sign ':' true :: .sign ':' joined :: .name w :: ts)
    (hts : NoArguments ts) :
    (pathStep i q).run p = .ok (.yield (q.append w .none), p.advance ts) := by
  have hseg := segment_run_of (i := i) (p := p.advance (.name w :: ts)) hw rfl hts
  have hadvance : (p.advance (.name w :: ts)).advance ts = p.advance ts :=
    Place.advance_advance [.sign ':' true, .sign ':' joined] [.name w] hp
  rw [hadvance] at hseg
  have hsign : signs? "::".toList p.lexemes = some (.name w :: ts) := by
    rw [hp]
    rfl
  have hgoes : (startsWith "::" p.lexemes && !startsGroupArguments p.lexemes) = true := by
    rw [hp]
    rfl
  simp only [pathStep, StateT.run_bind, run_left, ok_bind, hgoes, if_true, run_sign hsign, hseg]
  rfl

/-- A path goes on as long as names follow. -/
theorem repeatFrom_pathStep {i : Inner} {last : String} {ts rest : List Lexeme}
    (h : Spells last ts) (hlast : IsPathName last) (ha : startsWith "<" rest = false)
    (hc : startsWith "::" rest = false) (n : Nat) (hn : ts.length < n) (q : Path) (p : Place)
    {joined : Bool} (hp : p.lexemes = .sign ':' true :: .sign ':' joined :: (ts ++ rest)) :
    ∃ q', (repeatFrom (pathStep i) n q).run p = .ok (q', p.advance rest) ∧ q'.last = last := by
  -- A step reads one name; the bound leaves one more for the step that ends the path.
  induction h generalizing n q p joined with
  | name =>
    obtain ⟨n, rfl⟩ : ∃ m, n = m + 2 := ⟨n - 2, by simp at hn; omega⟩
    have hstep : (pathStep i q).run p = .ok (.yield (q.append last .none), p.advance rest) :=
      pathStep_yield hlast hp (noArguments_of_end ha hc)
    have hdone := pathStep_done (i := i) (q := q.append last .none) (p := p.advance rest) hc
    refine ⟨q.append last .none, ?_, rfl⟩
    simp only [repeatFrom, StateT.run_bind, hstep, hdone, ok_bind]
    rfl
  | @within w hw joined' ts hts ih =>
    obtain ⟨n, rfl⟩ : ∃ m, n = m + 1 := ⟨n - 1, by simp at hn; omega⟩
    have hstep := pathStep_yield (i := i) (q := q) hw hp (noArguments_of_spells hts joined')
    have hlength : ts.length < n := by
      simp only [List.length_cons] at hn
      omega
    obtain ⟨q', hq, hq'⟩ := ih n hlength (q.append w .none)
      (p.advance (.sign ':' true :: .sign ':' joined' :: (ts ++ rest))) rfl
    have hadvance : (p.advance (.sign ':' true :: .sign ':' joined' :: (ts ++ rest))).advance rest =
        p.advance rest :=
      Place.advance_advance [.sign ':' true, .sign ':' joined, .name w]
        (.sign ':' true :: .sign ':' joined' :: ts) hp
    rw [hadvance] at hq
    refine ⟨q', ?_, hq'⟩
    rw [← hq]
    simp [repeatFrom, hstep, ok_bind]

theorem path_run_of_spells {i : Inner} {last : String} {ts rest : List Lexeme}
    (h : Spells last ts) (hlast : last ∉ reserved) (ha : startsWith "<" rest = false)
    (hc : startsWith "::" rest = false) {p : Place} (hp : p.lexemes = ts ++ rest) :
    ∃ q, (path i false).run p = .ok (q, p.advance rest) ∧ q.last = last := by
  cases h with
  | name => exact ⟨_, path_run hlast hp ha hc, rfl⟩
  | @within w hw joined ts hts =>
    have hsegment := segment_run_of (i := i) hw hp (noArguments_of_spells hts joined)
    obtain ⟨q, hq, hq'⟩ := repeatFrom_pathStep (i := i) hts (.inl hlast) ha hc
      ((ts ++ rest).length + 3) (by simp; omega) { last := w, arguments := .none }
      (p.advance (.sign ':' true :: .sign ':' joined :: (ts ++ rest))) rfl
    have hadvance : (p.advance (.sign ':' true :: .sign ':' joined :: (ts ++ rest))).advance rest =
        p.advance rest :=
      Place.advance_advance [.name w] (.sign ':' true :: .sign ':' joined :: ts) hp
    rw [hadvance] at hq
    refine ⟨q, ?_, hq'⟩
    rw [← hq]
    simp [path, sign?, left, hp, signs?, hsegment, pathRest_eq, repeating, ok_bind, Place.advance]

/-- **The path to a name** is read as it is spelled. -/
theorem modelPath_run_of_spells {last : String} {ts rest : List Lexeme} (h : Spells last ts)
    (hlast : last ∉ reserved) (ha : startsWith "<" rest = false) (hc : startsWith "::" rest = false)
    {p : Place} (hp : p.lexemes = ts ++ rest) :
    ∃ q, modelPath.run p = .ok (q, p.advance rest) ∧ q.last = last := by
  obtain ⟨q, hq, hq'⟩ := path_run_of_spells (i := innerOf p.lexemes.length) h hlast ha hc hp
  exact ⟨q, by simp [modelPath, left, hq], hq'⟩

end ActiveRow.Source
