import ActiveRow.Proofs.Compilation.Shape

/-!
# Statements of one shape

Whatever the relation between values is, alike queries are laid out in alike pieces. So the text of
a statement does not depend on bound values, and each value of the one statement stands where the
value of the other stands.

* `Test.pieces_alike`, `Clause.listPieces_alike`, `Query.selectPieces_alike`: the parts of a
  statement, from the tests up.
* `statement_alike`: alike queries give the same fault, or the same text and related values.
-/

namespace ActiveRow

open List (Forall₂)

variable {R : Value → Value → Prop}

/-! ### Alike pieces -/

theorem isEmpty_eq_of_forall₂ {α β : Type} {S : α → β → Prop} {l : List α} {m : List β}
    (h : Forall₂ S l m) : l.isEmpty = m.isEmpty := by
  cases h <;> rfl

namespace Piece

theorem forall₂_text (s : String) : Forall₂ (Piece.Alike R) [.text s] [.text s] :=
  .cons (.text s) .nil

theorem forall₂_cons_text (s : String) {ps ps' : List Piece} (h : Forall₂ (Piece.Alike R) ps ps') :
    Forall₂ (Piece.Alike R) (.text s :: ps) (.text s :: ps') :=
  .cons (.text s) h

theorem render_alike (style : Placeholder) {ps ps' : List Piece}
    (h : Forall₂ (Piece.Alike R) ps ps') : ∀ used,
      render style used ps = render style used ps' := by
  induction h with
  | nil => intro used; rfl
  | cons hp _ ih => intro used; cases hp <;> simp only [render, ih]

theorem bindings_alike {ps ps' : List Piece} (h : Forall₂ (Piece.Alike R) ps ps') :
    Forall₂ R (bindings ps) (bindings ps') := by
  induction h with
  | nil => exact .nil
  | cons hp _ ih =>
    cases hp with
    | text s => exact ih
    | slot hv => exact .cons hv ih
    | flaw cause => exact ih

theorem firstFlaw?_alike {ps ps' : List Piece} (h : Forall₂ (Piece.Alike R) ps ps') :
    firstFlaw? ps = firstFlaw? ps' := by
  induction h with
  | nil => rfl
  | cons hp _ ih => cases hp <;> simp only [firstFlaw?, ih]

theorem finish_alike (style : Placeholder) {ps ps' : List Piece}
    (h : Forall₂ (Piece.Alike R) ps ps') : Paired R (finish style ps) (finish style ps') := by
  unfold finish
  rw [← firstFlaw?_alike h, ← render_alike style h]
  cases firstFlaw? ps with
  | some cause => exact .inl ⟨_, rfl, rfl⟩
  | none => exact .inr ⟨_, _, _, rfl, rfl, bindings_alike h⟩

theorem separated_alike (separator : String) {parts parts' : List (List Piece)}
    (h : Forall₂ (Forall₂ (Piece.Alike R)) parts parts') :
    Forall₂ (Piece.Alike R) (separated separator parts) (separated separator parts') := by
  unfold separated
  induction h with
  | nil => exact .nil
  | @cons a b l m hp ht ih =>
    cases ht with
    | nil => simpa [List.intercalate] using hp
    | cons hq hrest =>
      rw [List.intercalate_cons_cons, List.intercalate_cons_cons]
      exact List.rel_append (List.rel_append hp (forall₂_text separator)) ih

theorem slots_alike {vs vs' : List Value} (h : Forall₂ R vs vs') :
    Forall₂ (Piece.Alike R) (slots vs) (slots vs') :=
  separated_alike ", " (List.rel_map (fun _ _ hv => .cons (.slot hv) .nil) h)

end Piece

/-! ### Alike parts of a statement -/

/-- Alike bindings take the marks of a fragment in turn, and the same number is left over. -/
theorem Raw.scan_alike (cs : List Char) : ∀ (quoted : Bool) {vs vs' : List Value},
    Forall₂ R vs vs' →
      Forall₂ (Piece.Alike R) (scan quoted vs cs).1 (scan quoted vs' cs).1 ∧
        Forall₂ R (scan quoted vs cs).2 (scan quoted vs' cs).2 := by
  induction cs with
  | nil =>
    intro quoted vs vs' h
    exact ⟨by simp [scan], by simpa [scan] using h⟩
  | cons c cs ih =>
    intro quoted vs vs' h
    by_cases hq : c = '\''
    · obtain ⟨h1, h2⟩ := ih (!quoted) h
      simp only [scan, hq, if_true]
      exact ⟨Piece.forall₂_cons_text _ h1, h2⟩
    · cases h with
      | nil =>
        obtain ⟨h1, h2⟩ := ih quoted (.nil : Forall₂ R [] [])
        simp only [scan, hq, if_false]
        exact ⟨Piece.forall₂_cons_text _ h1, h2⟩
      | cons hv hrest =>
        by_cases hm : c = '?' ∧ !quoted
        · obtain ⟨h1, h2⟩ := ih quoted hrest
          simp only [scan, hq, if_false, if_pos hm]
          exact ⟨.cons (.slot hv) h1, h2⟩
        · obtain ⟨h1, h2⟩ := ih quoted (.cons hv hrest)
          simp only [scan, hq, if_false, if_neg hm]
          exact ⟨Piece.forall₂_cons_text _ h1, h2⟩

theorem Raw.pieces_alike {r r' : Raw} (h : r.Alike R r') :
    Forall₂ (Piece.Alike R) r.pieces r'.pieces := by
  obtain ⟨h1, h2⟩ := Raw.scan_alike r.sql.toList false h.bindings
  unfold Raw.pieces
  rw [← h.sql, ← isEmpty_eq_of_forall₂ h.bindings, ← h.bindings.length_eq]
  split
  · exact Piece.forall₂_text _
  · simp only [← isEmpty_eq_of_forall₂ h2, ← h2.length_eq]
    split
    · exact h1
    · exact List.rel_append h1 (.cons (.flaw _) .nil)

theorem Operand.pieces_alike {o o' : Operand} (h : o.Alike R o') :
    Forall₂ (Piece.Alike R) o.pieces o'.pieces := by
  cases h with
  | value hv => exact .cons (.slot hv) .nil
  | raw hr => exact Raw.pieces_alike hr

theorem Test.pieces_alike {t t' : Test} (h : t.Alike R t') :
    Forall₂ (Piece.Alike R) t.pieces t'.pieces := by
  cases h with
  | compare column operator ho hnull =>
    -- the text branches on null, which is the same on both sides
    simp only [Test.pieces, ← hnull]
    split
    · exact .cons (.text _) (Piece.forall₂_text _)
    · split
      · exact .cons (.text _) (Piece.forall₂_text _)
      · exact .cons (.text _) (.cons (.text _) (.cons (.text _) (.cons (.text _)
          (Operand.pieces_alike ho))))
  | among column negated hvs =>
    simp only [Test.pieces, ← isEmpty_eq_of_forall₂ hvs]
    split
    · exact Piece.forall₂_text _
    · exact .cons (.text _) (.cons (.text _)
        (List.rel_append (Piece.slots_alike hvs) (Piece.forall₂_text _)))
  | isNull column negated => exact .cons (.text _) (Piece.forall₂_text _)
  | between column negated hl hh =>
    exact .cons (.text _) (.cons (.text _) (.cons (.slot hl) (.cons (.text _)
      (.cons (.slot hh) .nil))))
  | columns first operator second =>
    exact .cons (.text _) (.cons (.text _) (.cons (.text _) (.cons (.text _)
      (Piece.forall₂_text _))))
  | raw hr => exact Raw.pieces_alike hr

mutual

theorem Clause.isVacant_alike : ∀ {c c' : Clause}, c.Alike R c' → c.isVacant = c'.isVacant
  | .test _ _, _, .test _ _ => rfl
  | .group _ _, _, .group _ h => by simp only [Clause.isVacant, Clause.areVacant_alike h]

theorem Clause.areVacant_alike : ∀ {cs cs' : List Clause}, Forall₂ (Clause.Alike R) cs cs' →
    Clause.areVacant cs = Clause.areVacant cs'
  | [], _, .nil => rfl
  | c :: cs, _, .cons h hs => by
    simp only [Clause.areVacant, Clause.isVacant_alike h, Clause.areVacant_alike hs]

end

mutual

theorem Clause.tokens_alike : ∀ {c c' : Clause}, c.Alike R c' →
    Forall₂ (Token.Alike R) c.tokens c'.tokens
  | .test _ _, _, .test _ h => .cons (.leaf h) .nil
  | .group _ _, _, .group _ h =>
    .cons .openGroup (List.rel_append (Clause.listTokens_alike true h) (.cons .closeGroup .nil))

theorem Clause.listTokens_alike (first : Bool) : ∀ {cs cs' : List Clause},
    Forall₂ (Clause.Alike R) cs cs' →
      Forall₂ (Token.Alike R) (Clause.listTokens first cs) (Clause.listTokens first cs')
  | [], _, .nil => .nil
  | c :: cs, _, .cons (b := c') h hs => by
    have hlink : c.link = c'.link := by cases h <;> rfl
    simp only [Clause.listTokens, ← Clause.isVacant_alike h, ← hlink]
    split
    · exact Clause.listTokens_alike first hs
    · refine List.rel_append (List.rel_append ?_ (Clause.tokens_alike h))
        (Clause.listTokens_alike false hs)
      split
      · exact .nil
      · exact .cons (.connector _) .nil

end

theorem Token.pieces_alike {t t' : Token} (h : t.Alike R t') :
    Forall₂ (Piece.Alike R) t.pieces t'.pieces := by
  cases h with
  | leaf h => exact Test.pieces_alike h
  | connector c => exact .cons (.text _) (.cons (.text _) (Piece.forall₂_text _))
  | openGroup => exact Piece.forall₂_text _
  | closeGroup => exact Piece.forall₂_text _

theorem Clause.listPieces_alike (keyword : String) {cs cs' : List Clause}
    (h : Forall₂ (Clause.Alike R) cs cs') :
    Forall₂ (Piece.Alike R) (Clause.listPieces keyword cs) (Clause.listPieces keyword cs') := by
  simp only [Clause.listPieces, ← Clause.areVacant_alike h]
  split
  · exact .nil
  · exact Piece.forall₂_cons_text _ (List.rel_flatMap (Clause.listTokens_alike true h)
      fun _ _ ht => Token.pieces_alike ht)

theorem Join.conditionPieces_alike {c c' : JoinCondition} (h : c.Alike R c') :
    Forall₂ (Piece.Alike R) (Join.conditionPieces c) (Join.conditionPieces c') := by
  cases h with
  | columns first operator second link =>
    exact .cons (.text _) (.cons (.text _) (.cons (.text _) (.cons (.text _)
      (Piece.forall₂_text _))))
  | value column operator link hv =>
    exact .cons (.text _) (.cons (.text _) (.cons (.text _) (.cons (.text _)
      (.cons (.slot hv) .nil))))

theorem Join.furtherPieces_alike {c c' : JoinCondition} (h : c.Alike R c') :
    Forall₂ (Piece.Alike R) (Join.furtherPieces c) (Join.furtherPieces c') := by
  have hlink : c.link = c'.link := by cases h <;> rfl
  simp only [Join.furtherPieces, ← hlink]
  exact .cons (.text _) (.cons (.text _) (.cons (.text _) (Join.conditionPieces_alike h)))

theorem Join.pieces_alike {j j' : Join} (h : j.Alike R j') :
    Forall₂ (Piece.Alike R) j.pieces j'.pieces := by
  obtain ⟨kind, table, conditions⟩ := j
  obtain ⟨kind', table', conditions'⟩ := j'
  obtain ⟨rfl, rfl, hc⟩ := h
  refine .cons (.text _) (.cons (.text _) (.cons (.text _) (.cons (.text _) ?_)))
  cases hc with
  | nil => cases kind <;> exact .nil
  | cons hc hrest =>
    have hon := Piece.forall₂_cons_text " ON " (List.rel_append (Join.conditionPieces_alike hc)
      (List.rel_flatMap hrest fun _ _ h => Join.furtherPieces_alike h))
    cases kind with
    | cross => exact .nil
    | inner | left | right => exact hon

theorem Column.pieces_alike {c c' : Column} (h : c.Alike R c') :
    Forall₂ (Piece.Alike R) c.pieces c'.pieces := by
  cases h with
  | name n => exact Piece.forall₂_text n
  | raw hr => exact Raw.pieces_alike hr

theorem Order.pieces_alike {o o' : Order} (h : o.Alike R o') :
    Forall₂ (Piece.Alike R) o.pieces o'.pieces := by
  cases h with
  | column n direction => exact .cons (.text _) (.cons (.text _) (Piece.forall₂_text _))
  | raw hr => exact Raw.pieces_alike hr

/-! ### Alike statements -/

namespace Query

variable {q q' : Query}

theorem columnPieces_alike (h : q.Alike R q') :
    Forall₂ (Piece.Alike R) q.columnPieces q'.columnPieces := by
  simp only [columnPieces, ← isEmpty_eq_of_forall₂ h.columns]
  split
  · exact Piece.forall₂_text _
  · exact Piece.separated_alike _ (List.rel_map (fun _ _ hc => Column.pieces_alike hc) h.columns)

theorem orderPieces_alike (h : q.Alike R q') :
    Forall₂ (Piece.Alike R) q.orderPieces q'.orderPieces := by
  simp only [orderPieces, ← isEmpty_eq_of_forall₂ h.orders]
  split
  · exact .nil
  · exact Piece.forall₂_cons_text _ (Piece.separated_alike _
      (List.rel_map (fun _ _ ho => Order.pieces_alike ho) h.orders))

/-- Pieces without values are alike whatever the relation. -/
theorem forall₂_texts {ps : List Piece} (h : ∀ p ∈ ps, ∃ s, p = .text s) :
    Forall₂ (Piece.Alike R) ps ps :=
  List.forall₂_same.2 fun p hp => by obtain ⟨s, rfl⟩ := h p hp; exact .text s

theorem groupPieces_alike (h : q.Alike R q') :
    Forall₂ (Piece.Alike R) q.groupPieces q'.groupPieces := by
  simp only [groupPieces, ← h.groups]
  split
  · exact .nil
  · exact .cons (.text _) (Piece.forall₂_text _)

theorem extentPieces_alike (d : Dialect) (h : q.Alike R q') :
    Forall₂ (Piece.Alike R) (q.extentPieces d) (q'.extentPieces d) := by
  simp only [extentPieces, ← h.limit, ← h.offset]
  cases q.limit <;> cases q.offset <;> cases d <;> exact forall₂_texts (by simp)

theorem selectPieces_alike (d : Dialect) (table : String) (h : q.Alike R q') :
    Forall₂ (Piece.Alike R) (q.selectPieces d table) (q'.selectPieces d table) := by
  have hhead : Forall₂ (Piece.Alike R)
      (.text "SELECT " :: if q.distinct then [.text "DISTINCT "] else [])
      (.text "SELECT " :: if q'.distinct then [.text "DISTINCT "] else []) := by
    rw [h.distinct]
    split <;> exact forall₂_texts (by simp)
  have hfrom : Forall₂ (Piece.Alike R) [.text " FROM ", .text table]
      [.text " FROM ", .text table] :=
    forall₂_texts (by simp)
  have hjoins := List.rel_flatMap h.joins fun _ _ hj => Join.pieces_alike hj
  have hwheres := Clause.listPieces_alike " WHERE " h.wheres
  have hhavings := Clause.listPieces_alike " HAVING " h.havings
  -- the clauses follow each other in a fixed order
  have h1 := List.rel_append (List.rel_append hhead (columnPieces_alike h)) hfrom
  have h2 := List.rel_append (List.rel_append h1 hjoins) hwheres
  have h3 := List.rel_append (List.rel_append h2 (groupPieces_alike h)) hhavings
  exact List.rel_append (List.rel_append h3 (orderPieces_alike h)) (extentPieces_alike d h)

theorem unbounded_alike (h : q.Alike R q') : q.unbounded.Alike R q'.unbounded :=
  { h with orders := .nil, limit := rfl, offset := rfl }

/-- A column without values. -/
theorem forall₂_plainColumn (sql : String) :
    Forall₂ (Column.Alike R) [.raw ⟨sql, []⟩] [.raw ⟨sql, []⟩] :=
  .cons (.raw ⟨rfl, .nil⟩) .nil

theorem probe_alike (h : q.Alike R q') : q.probe.Alike R q'.probe :=
  { h with columns := forall₂_plainColumn "1", distinct := rfl, orders := .nil, limit := rfl,
           offset := rfl }

theorem counted_alike (h : q.Alike R q') : q.counted.Alike R q'.counted := by
  have hu := unbounded_alike h
  simp only [counted, ← h.distinct, ← isEmpty_eq_of_forall₂ hu.columns]
  split
  · exact { hu with columns := forall₂_plainColumn "1" }
  · exact hu

theorem aggregated_alike (a : Aggregate) (column : String) (h : q.Alike R q') :
    (q.aggregated a column).Alike R (q'.aggregated a column) :=
  { unbounded_alike h with distinct := rfl, columns := forall₂_plainColumn _ }

theorem aggregatePieces_alike (d : Dialect) (table : String) (a : Aggregate) (column : String)
    (h : q.Alike R q') :
    Forall₂ (Piece.Alike R) (q.aggregatePieces d table a column)
      (q'.aggregatePieces d table a column) := by
  have hcounts : q.countsRows a = q'.countsRows a := by
    simp only [countsRows, h.groups, isEmpty_eq_of_forall₂ h.havings, h.distinct]
  simp only [aggregatePieces, ← hcounts]
  split
  · exact Piece.forall₂_cons_text _ (List.rel_append
      (selectPieces_alike d table (counted_alike h)) (Piece.forall₂_text _))
  · exact selectPieces_alike d table (aggregated_alike a column h)

theorem insertPieces_alike (table : String) (columns : List String)
    {rows rows' : List (List Operand)} (h : Forall₂ (Forall₂ (Operand.Alike R)) rows rows') :
    Forall₂ (Piece.Alike R) (insertPieces table columns rows)
      (insertPieces table columns rows') := by
  have hrow : ∀ {r r' : List Operand}, Forall₂ (Operand.Alike R) r r' →
      Forall₂ (Piece.Alike R) (rowPieces r) (rowPieces r') := fun hr =>
    Piece.forall₂_cons_text "(" (List.rel_append
      (Piece.separated_alike ", " (List.rel_map (fun _ _ ho => Operand.pieces_alike ho) hr))
      (Piece.forall₂_text ")"))
  unfold insertPieces
  refine List.rel_append (forall₂_texts (by simp)) ?_
  split
  · exact Piece.forall₂_text _
  · exact List.rel_append (forall₂_texts (by simp))
      (Piece.separated_alike ", " (List.rel_map (fun _ _ hr => hrow hr) h))

theorem updatePieces_alike (table : String) (h : q.Alike R q') {values values' : List Assignment}
    (hv : Forall₂ (Assignment.Alike R) values values') :
    Forall₂ (Piece.Alike R) (q.updatePieces table values) (q'.updatePieces table values') := by
  have hset : ∀ {a a' : Assignment}, a.Alike R a' →
      Forall₂ (Piece.Alike R) (assignmentPieces a) (assignmentPieces a') := by
    intro a a' ha
    simp only [assignmentPieces, ← ha.column]
    exact .cons (.text _) (.cons (.text _) (Operand.pieces_alike ha.operand))
  exact List.rel_append (List.rel_append (forall₂_texts (by simp))
    (Piece.separated_alike ", " (List.rel_map (fun _ _ ha => hset ha) hv)))
    (Clause.listPieces_alike " WHERE " h.wheres)

theorem unevenRow?_alike (columns : Nat) {rows rows' : List (List Operand)}
    (h : Forall₂ (Forall₂ (Operand.Alike R)) rows rows') : ∀ i,
    unevenRow? columns i rows = unevenRow? columns i rows' := by
  induction h with
  | nil => intro i; rfl
  | cons hr _ ih => intro i; simp only [unevenRow?, hr.length_eq, ih]

end Query

theorem Form.check_alike {q q' : Query} {f f' : Form} (hq : q.Alike R q') (hf : f.Alike R f') :
    f.check q = f'.check q' := by
  have hv : q.validate = q'.validate := by simp only [Query.validate, hq.firstInvalid]
  have ht : q.requireTable = q'.requireTable := by simp only [Query.requireTable, hq.table]
  have hr : f.refusal? q = f'.refusal? q' := by
    cases hf with
    | insert columns hrows => simp only [refusal?, Query.unevenRow?_alike columns.length hrows 0]
    | update hvalues =>
      simp only [refusal?, isEmpty_eq_of_forall₂ hvalues, isEmpty_eq_of_forall₂ hq.joins]
    | delete => simp only [refusal?, isEmpty_eq_of_forall₂ hq.joins]
    | select | probe | aggregate | truncate => rfl
  simp only [check, hv, ht, hr]

theorem Form.layout_alike (d : Dialect) (table : String) {q q' : Query} {f f' : Form}
    (hq : q.Alike R q') (hf : f.Alike R f') :
    Forall₂ (Piece.Alike R) (f.layout d table q) (f'.layout d table q') := by
  cases hf with
  | select => exact Query.selectPieces_alike d table hq
  | probe => exact Query.selectPieces_alike d table (Query.probe_alike hq)
  | aggregate a column => exact Query.aggregatePieces_alike d table a column hq
  | insert columns hrows => exact Query.insertPieces_alike table columns hrows
  | update hvalues => exact Query.updatePieces_alike table hq hvalues
  | delete =>
    exact .cons (.text _) (.cons (.text _) (Clause.listPieces_alike " WHERE " hq.wheres))
  | truncate => exact Piece.forall₂_text _

/-- **Text does not depend on bound values.** In every dialect and every form, queries of one shape
are refused with the same fault or give the same text, with the values of corresponding places at
the same positions of both lists of values. -/
theorem statement_alike (d : Dialect) {q q' : Query} {f f' : Form} (hq : q.Alike R q')
    (hf : f.Alike R f') : Paired R (f.statement d q) (f'.statement d q') := by
  rw [Form.statement_eq, Form.statement_eq, ← Form.check_alike hq hf]
  cases f.check q with
  | error cause => exact .inl ⟨cause, rfl, rfl⟩
  | ok table => exact Piece.finish_alike d.placeholder (Form.layout_alike d table hq hf)

/-- Two values, one of them in a raw test of a group, against texts that look like SQL. -/
theorem statement_alike_texts :
    let R : Value → Value → Prop := fun v v' =>
      v = .int 1 ∧ v' = .text "1 OR 1 = 1" ∨ v = .int 2 ∧ v' = .text "2; DROP TABLE t"
    let wheres : Value → Value → List Clause := fun v w =>
      [.group .and [.test .and (.compare "a" "=" (.value v)), .test .or (.raw ⟨"b > ?", [w]⟩)]]
    let q : Query := { Query.on "t" with wheres := wheres (.int 1) (.int 2) }
    let q' : Query :=
      { Query.on "t" with wheres := wheres (.text "1 OR 1 = 1") (.text "2; DROP TABLE t") }
    q.Alike R q' ∧ Form.Alike R .select .select ∧
      Paired R (Form.select.statement .postgres q) (Form.select.statement .postgres q') := by
  intro R wheres q q'
  have hq : q.Alike R q' :=
    { table := rfl, columns := .nil, distinct := rfl, joins := .nil, groups := rfl, havings := .nil
      orders := .nil, limit := rfl, offset := rfl, firstInvalid := rfl
      wheres := .cons (.group .and (.cons
        (.test .and (.compare "a" "=" (.value (.inl ⟨rfl, rfl⟩)) rfl))
        (.cons (.test .or (.raw ⟨rfl, .cons (.inr ⟨rfl, rfl⟩) .nil⟩)) .nil))) .nil }
  exact ⟨hq, .select, statement_alike .postgres hq .select⟩

end ActiveRow
