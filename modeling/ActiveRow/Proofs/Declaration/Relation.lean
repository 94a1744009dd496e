import ActiveRow.Declaration
import ActiveRow.Proofs.Source.Path

/-!
# Relations of declared types

A relation is written as the path to a model with options behind it. It is read option by option,
and an attribute that holds a relation adds it to those before it.

* `DeclaredRelation.optionStep_yield`, `optionStep_done`: the step for one more option, and for the
  end.
* `DeclaredRelation.run_reader`: a relation is read as it is written.
* `Blueprint.readItems_relation`: what an attribute with a relation adds.
-/

namespace ActiveRow

open Source Source.Reader

open ItemReader (run_lift)

theorem run_value {p : Place} {text written : String} {joined : Bool} {ts : List Lexeme}
    (h : p.lexemes = .sign '=' joined :: .text text written :: ts) :
    value.run p = .ok (text, (p.advance (.text text written :: ts)).advance ts) := by
  have hsign : signs? "=".toList p.lexemes = some (.text text written :: ts) := by
    rw [h]
    rfl
  simp only [value, StateT.run_bind, run_sign hsign, ok_bind]
  exact run_text rfl

namespace DeclaredRelation

/-! ### Options -/

theorem lexemes_option {name : String} (h : isOption name = true) :
    lexemes name = [.name name] := by
  simp only [isOption, List.contains_iff_mem, List.mem_cons, List.not_mem_nil, or_false] at h
  rcases h with rfl | rfl | rfl | rfl <;> rfl

/-- Options as they are written, and what may stand behind them. -/
def optionsSource (options : List (String × String)) (endsInComma : Bool) : List Lexeme :=
  (options.flatMap fun (name, value) => .comma :: Item.assigned (lexemes name) value) ++
    if endsInComma then [.comma] else []

theorem optionsSource_cons {name text : String} (h : isOption name = true)
    (options : List (String × String)) (endsInComma : Bool) :
    optionsSource ((name, text) :: options) endsInComma =
      .comma :: .name name :: .sign '=' false :: .quoted text ::
        optionsSource options endsInComma := by
  simp [optionsSource, Item.assigned, lexemes_option h]

/-- One more option. -/
def optionStep (read : List (String × String)) :
    ItemReader (ForInStep (List (String × String))) := do
  if !(← sign? ",") || (← left).isEmpty then return .done read
  let name ← anyName
  let value ← value
  if !isOption name then throw .unknownOption
  return .yield (read ++ [(name, value)])

theorem options_eq : options = repeating optionStep [] := rfl

theorem optionStep_yield {name text : String} {p : Place} {ts : List Lexeme}
    (h : isOption name = true) (read : List (String × String))
    (hp : p.lexemes = .comma :: .name name :: .sign '=' false :: .quoted text :: ts) :
    ∃ p', (optionStep read).run p = .ok (.yield (read ++ [(name, text)]), p') ∧
      p'.lexemes = ts ∧ p'.leftOver = p.leftOver := by
  let behindComma := p.advance (.name name :: .sign '=' false :: .quoted text :: ts)
  let behindName := behindComma.advance (.sign '=' false :: .quoted text :: ts)
  have hcomma : (sign? ",").run p = .ok (true, behindComma) := by
    refine run_sign?_of_some ?_
    rw [hp]
    rfl
  have hmore : behindComma.lexemes ≠ [] := List.cons_ne_nil _ _
  have hname : anyName.run behindComma = .ok (name, behindName) := run_anyName rfl
  let behindSign := behindName.advance (.quoted text :: ts)
  have hvalue : value.run behindName = .ok (text, behindSign.advance ts) := run_value rfl
  refine ⟨behindSign.advance ts, ?_, rfl, rfl⟩
  simp only [optionStep, StateT.run_bind, run_lift.2 hcomma, ok_bind, Bool.not_true, Bool.false_or,
    run_lift.2 (run_left (p := behindComma)), List.isEmpty_iff, hmore, if_false, run_lift.2 hname,
    run_lift.2 hvalue, h, Bool.false_eq_true]
  rfl

theorem optionStep_done {p : Place} (read : List (String × String)) {endsInComma : Bool}
    (hp : p.lexemes = if endsInComma then [.comma] else []) :
    ∃ p', (optionStep read).run p = .ok (.done read, p') ∧ p'.lexemes = [] ∧
      p'.leftOver = p.leftOver := by
  cases endsInComma with
  | true =>
    have hcomma : (sign? ",").run p = .ok (true, p.advance []) := by
      refine run_sign?_of_some ?_
      rw [hp]
      rfl
    have hend : (p.advance []).lexemes = [] := rfl
    refine ⟨p.advance [], ?_, rfl, rfl⟩
    simp only [optionStep, StateT.run_bind, run_lift.2 hcomma, ok_bind, Bool.not_true,
      Bool.false_or, run_lift.2 (run_left (p := p.advance [])), hend, List.isEmpty_nil, if_true]
    rfl
  | false =>
    have hcomma : (sign? ",").run p = .ok (false, p) := by
      refine run_sign?_of_none ?_
      rw [hp]
      rfl
    refine ⟨p, ?_, hp, rfl⟩
    simp only [optionStep, StateT.run_bind, run_lift.2 hcomma, ok_bind, Bool.not_false,
      Bool.true_or, run_lift.2 (run_left (p := p)), if_true]
    rfl

/-- All options are read, behind those that have been read. -/
theorem repeatFrom_optionStep {options : List (String × String)} {endsInComma : Bool}
    (h : ∀ o ∈ options, isOption o.1 = true) (n : Nat) (hn : options.length < n)
    (read : List (String × String)) (p : Place)
    (hp : p.lexemes = optionsSource options endsInComma) :
    ∃ p', (repeatFrom optionStep n read).run p = .ok (read ++ options, p') ∧ p'.lexemes = [] ∧
      p'.leftOver = p.leftOver := by
  -- A step reads one option, and the last step sees that there are no more.
  induction options generalizing n read p with
  | nil =>
    obtain ⟨n, rfl⟩ : ∃ m, n = m + 1 := ⟨n - 1, by simp at hn; omega⟩
    obtain ⟨p', hdone, hend, hleft⟩ := optionStep_done read hp
    refine ⟨p', ?_, hend, hleft⟩
    simp only [repeatFrom, StateT.run_bind, hdone, ok_bind, List.append_nil]
    rfl
  | cons o options ih =>
    obtain ⟨name, text⟩ := o
    obtain ⟨hname, hoptions⟩ := List.forall_mem_cons.1 h
    obtain ⟨n, rfl⟩ : ∃ m, n = m + 1 := ⟨n - 1, by simp at hn; omega⟩
    have hlength : options.length < n := by
      simp only [List.length_cons] at hn
      omega
    rw [optionsSource_cons hname] at hp
    obtain ⟨p₁, hstep, hlexemes, hleft₁⟩ := optionStep_yield hname read hp
    obtain ⟨p₂, hrest, hend, hleft₂⟩ :=
      ih hoptions n hlength (read ++ [(name, text)]) p₁ hlexemes
    refine ⟨p₂, ?_, hend, hleft₂.trans hleft₁⟩
    rw [List.append_assoc] at hrest
    simp [repeatFrom, hstep, ok_bind, hrest]

/-! ### The whole relation -/

theorem isBracket_of_spells {last : String} {ts : List Lexeme} (h : Spells last ts) :
    ∀ t ∈ ts, !t.isBracket := by
  induction h with
  | name => simp [Lexeme.isBracket]
  | within _ _ _ ih => simpa [Lexeme.isBracket] using ih

theorem isBracket_optionsSource {options : List (String × String)}
    (h : ∀ o ∈ options, isOption o.1 = true) (endsInComma : Bool) :
    ∀ t ∈ optionsSource options endsInComma, !t.isBracket := by
  induction options with
  | nil => cases endsInComma <;> simp [optionsSource, Lexeme.isBracket, Lexeme.comma]
  | cons o options ih =>
    obtain ⟨hname, hoptions⟩ := List.forall_mem_cons.1 h
    rw [optionsSource_cons hname]
    simpa [Lexeme.isBracket, Lexeme.comma, Lexeme.quoted] using ih hoptions

theorem length_le_optionsSource {options : List (String × String)}
    (h : ∀ o ∈ options, isOption o.1 = true) (endsInComma : Bool) :
    options.length ≤ (optionsSource options endsInComma).length := by
  induction options with
  | nil => exact Nat.zero_le _
  | cons o options ih =>
    obtain ⟨hname, hoptions⟩ := List.forall_mem_cons.1 h
    have hle := ih hoptions
    rw [optionsSource_cons hname]
    simp only [List.length_cons]
    omega

/-- What stands behind a path begins with a comma, if there is anything. -/
theorem startsWith_optionsSource {options : List (String × String)}
    (h : ∀ o ∈ options, isOption o.1 = true) (endsInComma : Bool) :
    startsWith "<" (optionsSource options endsInComma) = false ∧
      startsWith "::" (optionsSource options endsInComma) = false := by
  cases options with
  | nil => cases endsInComma <;> exact ⟨rfl, rfl⟩
  | cons o options =>
    rw [optionsSource_cons (List.forall_mem_cons.1 h).1]
    exact ⟨rfl, rfl⟩

/-- The path of a model is taken out, up to the options behind it. -/
theorem run_taken_modelPath {last : String} {ts : List Lexeme} (hts : Spells last ts)
    (hlast : last ∉ reserved) {options : List (String × String)}
    (hoptions : ∀ o ∈ options, isOption o.1 = true) (endsInComma : Bool) {p : Place}
    (hp : p.lexemes = ts ++ optionsSource options endsInComma) :
    ∃ q p', (taken modelPath).run p = .ok ((q, ts), p') ∧ q.last = last ∧
      p'.lexemes = optionsSource options endsInComma ∧ p'.leftOver = p.leftOver := by
  obtain ⟨hangle, hcolons⟩ := startsWith_optionsSource hoptions endsInComma
  obtain ⟨q, hpath, hq⟩ := modelPath_run_of_spells hts hlast hangle hcolons
    (p := { p with read := [] }) hp
  have hread : (({ p with read := [] } : Place).advance (optionsSource options endsInComma)).read =
      ts := Place.read_advance (p := { p with read := [] }) hp
  have htaken := run_taken hpath
  rw [hread] at htaken
  exact ⟨q, _, htaken, hq, rfl, rfl⟩

/-- **A relation is read as it is written**: the path by its last name, then all the options. -/
theorem run_reader {kind : RelationKind} {last : String} {ts : List Lexeme} (hts : Spells last ts)
    (hlast : last ∉ reserved) {options : List (String × String)}
    (hoptions : ∀ o ∈ options, isOption o.1 = true) (endsInComma : Bool) {r : DeclaredRelation}
    (hr : ofOptions kind last (modelText ts) options = .ok r) {p : Place}
    (hp : p.lexemes = inBrackets (ts ++ optionsSource options endsInComma)) :
    ∃ p', (reader kind).run p = .ok (r, p') ∧ p'.lexemes = [] ∧ p'.leftOver = p.leftOver := by
  have hplain : ∀ t ∈ ts ++ optionsSource options endsInComma, !t.isBracket := by
    rw [List.forall_mem_append]
    exact ⟨isBracket_of_spells hts, isBracket_optionsSource hoptions endsInComma⟩
  let within : Place := { p with
    lexemes := ts ++ optionsSource options endsInComma, within := .round
    read := p.read ++ [.opens .round] }
  have henter : (enter .round).run p = .ok ({ p with lexemes := [] }, within) := run_enter hplain hp
  obtain ⟨q, behindPath, hpath, hq, hbehind, hleftPath⟩ :=
    run_taken_modelPath hts hlast hoptions endsInComma (p := within) rfl
  have hlength : options.length < behindPath.lexemes.length + 1 := by
    rw [hbehind]
    exact Nat.lt_succ_of_le (length_le_optionsSource hoptions endsInComma)
  obtain ⟨inside, hrun, hend, hleft⟩ :=
    repeatFrom_optionStep hoptions _ hlength [] behindPath hbehind
  have hread : DeclaredRelation.options.run behindPath = .ok (options, inside) := by
    rw [options_eq]
    exact hrun
  refine ⟨inside.leave { p with lexemes := [] }, ?_, rfl, ?_⟩
  · simp only [reader, StateT.run_bind, run_lift.2 henter, run_lift.2 hpath, ok_bind, hread, hq, hr,
      StateT.run_monadLift, monadLift_self, run_lift.2 (run_leave _)]
    rfl
  · simp [Place.leave, hend, hleft, hleftPath, within]

end DeclaredRelation

/-! ### Attributes with a relation -/

namespace Blueprint

open DeclaredRelation

theorem run_itemName {p : Place} {w : String} {ts : List Lexeme} (hp : p.lexemes = .name w :: ts)
    (hts : signs? "::".toList ts = none) : itemName.run p = .ok (some w, p.advance ts) := by
  have hrooted : (sign? "::").run p = .ok (false, p) := by
    refine run_sign?_of_none ?_
    rw [hp]
    rfl
  have hpath : (sign? "::").run (p.advance ts) = .ok (false, p.advance ts) := run_sign?_of_none hts
  have hmore : p.lexemes ≠ [] := by
    rw [hp]
    exact List.cons_ne_nil _ _
  have hname : startsAnyName p.lexemes = true := by
    rw [hp]
    rfl
  simp only [itemName, StateT.run_bind, hrooted, ok_bind, run_left, List.isEmpty_iff, hmore, hname,
    Bool.not_true, Bool.false_eq_true, if_false, run_anyName hp, repeating, StateT.run_get,
    pure_bind, repeatFrom, hpath]
  rfl

theorem readItem_relation (b : Blueprint) (kind : RelationKind) :
    readItem b (some kind.name) = do
      return { b with relations := b.relations ++ [← DeclaredRelation.reader kind] } := by
  cases kind <;> rfl

/-- **An attribute with a relation** adds it to those before it. -/
theorem readItems_relation (b : Blueprint) {kind : RelationKind} {last model : String}
    (hmodel : Spells last (lexemes model)) (hlast : last ∉ reserved)
    {options : List (String × String)} (hoptions : ∀ o ∈ options, isOption o.1 = true)
    (endsInComma : Bool) {r : DeclaredRelation}
    (hr : ofOptions kind last (modelText (lexemes model)) options = .ok r) :
    b.readItems [.relation kind model options endsInComma] =
      .ok { b with relations := b.relations ++ [r] } := by
  let behindName := inBrackets (lexemes model ++ optionsSource options endsInComma)
  let start : Place := { lexemes := .name kind.name :: behindName }
  have hsource : (Item.relation kind model options endsInComma).source = start.lexemes := by
    simp [Item.source, optionsSource, start, behindName]
  have hname : itemName.run start = .ok (some kind.name, start.advance behindName) :=
    run_itemName rfl rfl
  obtain ⟨p', hrun, hend, hleft⟩ := run_reader hmodel hlast hoptions endsInComma hr
    (p := start.advance behindName) rfl
  have hlist : (itemList readItem b).run start =
      .ok ({ b with relations := b.relations ++ [r] }, p') := by
    simp only [itemList, repeating, StateT.run_bind, StateT.run_get, pure_bind, repeatFrom,
      run_lift.2 hname, ok_bind, readItem_relation, hrun, StateT.run_pure,
      run_lift.2 (run_left (p := p')), hend, List.isEmpty_nil, if_true]
    rfl
  have hnone : p'.leftOver = none := hleft
  have hitems : start.lexemes ≠ [] := List.cons_ne_nil _ _
  simp only [readItems, List.map_cons, List.map_nil, List.intercalate_singleton, hsource,
    List.isEmpty_iff, hitems, if_false]
  refine (congrArg (· >>= _) hlist).trans ?_
  simp only [ok_bind, hnone]
  rfl

end Blueprint

end ActiveRow
