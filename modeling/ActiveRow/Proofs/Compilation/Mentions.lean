import ActiveRow.Proofs.Compilation.Markers
import ActiveRow.Proofs.Decimal.Whole
import ActiveRow.Proofs.Text.Words

/-!
# Where a statement mentions RETURNING

A changing statement is written with the texts that its query and its form give, and with fixed
texts around them. What is fixed begins and ends with a character that the word does not have, so
no two texts together make the word: a statement that mentions it has a text that does.

* `Piece.Silent`: pieces that do not mention the word, and how such pieces are put together.
* `Raw.silent_pieces`: a fragment mentions the word no more once its markers are replaced.
* `Form.silent_layout`: a changing statement whose texts do not mention the word.
-/

namespace ActiveRow

/-- The word that asks for the rows of a change. -/
def returning : List Char := "RETURNING".toList

open Text

/-! ### Fixed texts -/

/-- A fixed text that may stand behind another text. -/
def Opens (s : String) : Prop :=
  (∀ c ∈ s.toList.head?, IsSeam returning c) ∧ Lacks returning s.toList

/-- A fixed text that may stand in front of another text. -/
def Closes (s : String) : Prop :=
  (∀ c ∈ s.toList.getLast?, IsSeam returning c) ∧ Lacks returning s.toList

/-- A fixed text that may stand between two others. -/
def Parts (s : String) : Prop := s.toList ≠ [] ∧ Opens s ∧ Closes s

instance (s : String) : Decidable (Opens s) :=
  decidable_of_iff (s.toList.head?.all (fun c => IsSeam returning c) ∧ Lacks returning s.toList)
    (by unfold Opens; cases s.toList.head? <;> simp)

instance (s : String) : Decidable (Closes s) :=
  decidable_of_iff (s.toList.getLast?.all (fun c => IsSeam returning c) ∧ Lacks returning s.toList)
    (by unfold Closes; cases s.toList.getLast? <;> simp)

instance (s : String) : Decidable (Parts s) :=
  inferInstanceAs (Decidable (s.toList ≠ [] ∧ Opens s ∧ Closes s))

/-! ### Marks of places -/

theorem numbered_mark (n : Nat) {c : Char} (h : c ∈ (Placeholder.numbered.mark n).toList) :
    c = '$' ∨ c.isDigit = true := by
  rw [Placeholder.mark, String.toList_append] at h
  rcases List.mem_append.1 h with h | h
  · exact .inl (List.mem_singleton.1 h)
  · exact .inr (Decimal.isDigit_of_mem_repr h)

theorem dollar_mem_mark (n : Nat) : '$' ∈ (Placeholder.numbered.mark n).toList := by
  rw [Placeholder.mark, String.toList_append]
  exact List.mem_append_left _ (List.mem_singleton_self _)

theorem isBlank_of_mem_mark (n : Nat) : ∀ c ∈ (Placeholder.numbered.mark n).toList,
    isBlank c = false := by
  intro c hc
  rcases numbered_mark n hc with rfl | hdigit
  · rfl
  · exact isBlank_of_isAlphanum (by simp [Char.isAlphanum, hdigit])

theorem lacks_mark (n : Nat) : Lacks returning (Placeholder.numbered.mark n).toList := by
  refine ⟨'G', by decide, fun c hc => ?_⟩
  rcases numbered_mark n hc with rfl | hdigit
  · decide
  · have hlower : ¬c.isLower = true := by
      simp only [Char.isDigit, Char.isLower, Bool.and_eq_true, decide_eq_true_eq,
        UInt32.le_iff_toNat_le, UInt32.reduceToNat, Char.reduceVal] at hdigit ⊢
      omega
    rw [Char.toUpper_eq_of_not_isLower hlower]
    rintro rfl
    cases hdigit

/-! ### Pieces -/

namespace Piece

/-- These pieces do not mention the word, however many places were numbered before. -/
structure Silent (ps : List Piece) : Prop where
  not_mentions (used : Nat) : ¬Mentions returning (render .numbered used ps).toList

namespace Silent

variable {ps ps' : List Piece} {s : String}

theorem nil : Silent [] where
  not_mentions _ := by
    have hlacks : Lacks returning [] := by decide
    exact hlacks.not_mentions

theorem text (h : ¬Mentions returning s.toList) : Silent [.text s] where
  not_mentions used := by simpa [render] using h

theorem fixed (h : Lacks returning s.toList) : Silent [.text s] := text h.not_mentions

theorem slot (v : Value) : Silent [.slot v] where
  not_mentions used := by
    have hrender : render .numbered used [.slot v] = Placeholder.numbered.mark (used + 1) :=
      String.append_empty
    rw [hrender]
    exact (lacks_mark _).not_mentions

theorem behind (hs : Closes s) (h : Silent ps) : Silent (.text s :: ps) where
  not_mentions used hmention := by
    rw [render, String.toList_append] at hmention
    exact h.not_mentions used (mentions_append_left hs.1 hs.2 hmention)

theorem before (hs : Opens s) (h : Silent ps) : Silent (ps ++ [.text s]) where
  not_mentions used hmention := by
    have hrender : render .numbered used (ps ++ [.text s]) = render .numbered used ps ++ s := by
      rw [render_append]
      exact congrArg _ String.append_empty
    rw [hrender, String.toList_append] at hmention
    exact h.not_mentions used (mentions_append_right hs.1 hs.2 hmention)

/-- **Pieces with a fixed text between them** mention the word no more than they do apart. -/
theorem around (hs : Parts s) (h : Silent ps) (h' : Silent ps') :
    Silent (ps ++ .text s :: ps') where
  not_mentions used hmention := by
    rw [render_append, render, String.toList_append, String.toList_append] at hmention
    exact (mentions_append_between hs.1 hs.2.1.1 hs.2.2.1 hs.2.1.2 hmention).elim
      (h.not_mentions used) (h'.not_mentions _)

theorem separated (hs : Parts s) {parts : List (List Piece)} (h : ∀ p ∈ parts, Silent p) :
    Silent (Piece.separated s parts) := by
  unfold Piece.separated
  induction parts with
  | nil => exact .nil
  | cons p parts ih =>
    have hp := h p List.mem_cons_self
    cases parts with
    | nil => simpa using hp
    | cons q parts =>
      have hrest := ih fun p hp => h p (List.mem_cons_of_mem _ hp)
      simpa [List.intercalate_cons_cons] using around hs hp hrest

end Silent

end Piece

open Piece (Silent)

/-! ### Raw fragments -/

namespace Raw

/-- What a scan gives is the fragment with its markers replaced. -/
theorem marked_scan (cs : List Char) : ∀ (quoted : Bool) (vs : List Value) (used : Nat),
    Marked '$' cs (Piece.render .numbered used (scan quoted vs cs).1).toList := by
  induction cs with
  | nil => exact fun quoted vs used => .nil
  | cons c cs ih =>
    intro quoted vs used
    have hkeep : Marked '$' (c :: cs)
        (Piece.render .numbered used (.text (String.singleton c) ::
          (scan (quotedBehind quoted c) vs cs).1)).toList := by
      rw [Piece.render, String.toList_append, String.toList_singleton]
      exact .keep c (ih _ _ _)
    by_cases hmarker : c = '?' ∧ quoted = false
    · obtain ⟨rfl, rfl⟩ := hmarker
      cases vs with
      | nil => rwa [scan_text (.inl rfl)]
      | cons v vs =>
        rw [scan_marker, Piece.render, String.toList_append]
        exact .mark '?' (isBlank_of_mem_mark _) (dollar_mem_mark _) (ih _ _ _)
    · rwa [scan_text (.inr hmarker)]

/-- **A fragment** mentions the word no more once its markers are replaced. -/
theorem silent_pieces {r : Raw} (h : ¬Mentions returning r.sql.toList) : Silent r.pieces := by
  by_cases hnone : r.bindings = []
  · rw [pieces, hnone]
    exact .text h
  · refine ⟨fun used hmention => ?_⟩
    refine h (.of_marked (by decide) (marked_scan r.sql.toList false r.bindings used) ?_)
    rw [pieces_eq hnone] at hmention
    split at hmention
    · exact hmention
    · rwa [Piece.render_append, Piece.render, Piece.render, String.append_empty] at hmention

end Raw

/-! ### Tests -/

def Operand.texts : Operand → List String
  | value _ => []
  | raw r => [r.sql]

/-- The texts of a test: its columns, its operator and what is raw. -/
def Test.texts : Test → List String
  | compare column operator operand => column :: operator :: operand.texts
  | among column _ _ => [column]
  | isNull column _ => [column]
  | between column _ _ _ => [column]
  | columns first operator second => [first, operator, second]
  | raw r => [r.sql]

/-- The texts of tests at any depth. -/
def Clause.listTexts (cs : List Clause) : List String := (listTests cs).flatMap Test.texts

theorem Operand.silent_pieces (o : Operand) (h : ∀ t ∈ o.texts, ¬Mentions returning t.toList) :
    Silent o.pieces := by
  cases o with
  | value v => exact .slot v
  | raw r => exact Raw.silent_pieces (h r.sql (List.mem_singleton_self _))

theorem Operator.not_mentions_written {operator : String}
    (h : ¬Mentions returning operator.toList) : ¬Mentions returning (written operator).toList := by
  intro hmention
  rw [written, upper, trim, String.toList_ofList, String.toList_ofList,
    mentions_map_toUpper] at hmention
  exact h hmention.of_trimChars

/-- Places of values. -/
theorem Piece.silent_slots (vs : List Value) : Silent (slots vs) := by
  refine .separated (by decide +kernel) fun p hp => ?_
  obtain ⟨v, -, rfl⟩ := List.mem_map.1 hp
  exact .slot v

theorem Test.silent_pieces (t : Test) (h : ∀ s ∈ t.texts, ¬Mentions returning s.toList) :
    Silent t.pieces := by
  cases t with
  | compare column operator operand =>
    simp only [texts, List.forall_mem_cons] at h
    obtain ⟨hcolumn, hoperator, hoperand⟩ := h
    have hwritten := Silent.text (Operator.not_mentions_written hoperator)
    have hsides := Silent.around (s := " ") (by decide +kernel) (.text hcolumn)
      (.around (s := " ") (by decide +kernel) hwritten (operand.silent_pieces hoperand))
    have hnull := Silent.before (s := " IS NULL") (by decide +kernel) (.text hcolumn)
    have hsome := Silent.before (s := " IS NOT NULL") (by decide +kernel) (.text hcolumn)
    simp only [pieces]
    split
    · exact hnull
    · split
      · exact hsome
      · exact hsides
  | among column values negated =>
    have hcolumn := Silent.text (h column (List.mem_singleton_self _))
    have hword : Parts (if negated then " NOT IN (" else " IN (") := by split <;> decide +kernel
    have hnone : Lacks returning (if negated then "1 = 1" else "0 = 1").toList := by
      split <;> decide +kernel
    cases values with
    | nil =>
      simp only [pieces, List.isEmpty_nil, if_true]
      exact .fixed hnone
    | cons v vs =>
      have hslots := (Piece.silent_slots (v :: vs)).before (s := ")") (by decide +kernel)
      simp only [pieces, List.isEmpty_cons, Bool.false_eq_true, if_false]
      simpa using hcolumn.around hword hslots
  | isNull column negated =>
    have hcolumn := Silent.text (h column (List.mem_singleton_self _))
    have hword : Opens (if negated then " IS NOT NULL" else " IS NULL") := by
      split <;> decide +kernel
    exact hcolumn.before hword
  | between column low high negated =>
    have hcolumn := Silent.text (h column (List.mem_singleton_self _))
    have hword : Parts (if negated then " NOT BETWEEN " else " BETWEEN ") := by
      split <;> decide +kernel
    exact hcolumn.around hword
      (Silent.around (s := " AND ") (by decide +kernel) (.slot low) (.slot high))
  | columns first operator second =>
    simp only [texts, List.forall_mem_cons] at h
    obtain ⟨hfirst, hoperator, hsecond, -⟩ := h
    have hwritten := Silent.text (Operator.not_mentions_written hoperator)
    exact Silent.around (s := " ") (by decide +kernel) (.text hfirst)
      (Silent.around (s := " ") (by decide +kernel) hwritten (.text hsecond))
  | raw r => exact Raw.silent_pieces (h r.sql (List.mem_singleton_self _))

namespace Clause

theorem lacks_sql (c : Connector) : Lacks returning c.sql.toList := by
  unfold Connector.sql
  split <;> decide +kernel

theorem silent_connector (c : Connector) {ps ps' : List Piece} (h : Silent ps) (h' : Silent ps') :
    Silent (ps ++ ((Token.connector c).pieces ++ ps')) := by
  have hspace : Parts " " := by decide +kernel
  exact h.around hspace ((Silent.fixed (lacks_sql c)).around hspace h')

mutual

theorem silent_tokens : ∀ c : Clause, (∀ t ∈ c.tests, Silent t.pieces) →
    c.isVacant = false → Silent (c.tokens.flatMap Token.pieces)
  | test _ t, h, _ => by
    simpa [tokens, Token.pieces] using h t (List.mem_singleton_self _)
  | group _ clauses, h, hvacant => by
    have hinner := (silent_listTokens clauses h).1 hvacant
    simpa [tokens, Token.pieces] using Silent.behind (s := "(") (by decide +kernel)
      (Silent.before (s := ")") (by decide +kernel) hinner)

/-- A list of clauses on its own, and behind other pieces. -/
theorem silent_listTokens : ∀ cs : List Clause, (∀ t ∈ listTests cs, Silent t.pieces) →
    (areVacant cs = false → Silent ((listTokens true cs).flatMap Token.pieces)) ∧
      ∀ ps, Silent ps → Silent (ps ++ (listTokens false cs).flatMap Token.pieces)
  | [], _ => ⟨nofun, fun ps hps => by simpa [listTokens] using hps⟩
  | c :: cs, h => by
    rw [listTests, List.forall_mem_append] at h
    obtain ⟨hfirst, hrest⟩ := silent_listTokens cs h.2
    cases hvacant : c.isVacant with
    | true => simpa [listTokens, areVacant, hvacant] using ⟨hfirst, hrest⟩
    | false =>
      have hc := silent_tokens c h.1 hvacant
      refine ⟨fun _ => ?_, fun ps hps => ?_⟩
      · simpa [listTokens, hvacant] using hrest _ hc
      · simpa [listTokens, hvacant] using hrest _ (silent_connector c.link hps hc)

end

/-- A list of clauses behind its keyword, behind other pieces. -/
theorem silent_listPieces {keyword : String} (hkeyword : Parts keyword) {cs : List Clause}
    (h : ∀ s ∈ listTexts cs, ¬Mentions returning s.toList) {ps : List Piece} (hps : Silent ps) :
    Silent (ps ++ listPieces keyword cs) := by
  have htests : ∀ t ∈ listTests cs, Silent t.pieces := fun t ht =>
    t.silent_pieces fun s hs => h s (List.mem_flatMap.2 ⟨t, ht, hs⟩)
  unfold listPieces
  cases hvacant : areVacant cs with
  | true => simpa using hps
  | false => simpa using hps.around hkeyword ((silent_listTokens cs htests).1 hvacant)

end Clause

/-! ### Changing statements -/

/-- Texts with commas between them. -/
theorem Piece.silent_intercalate {ss : List String}
    (h : ∀ s ∈ ss, ¬Mentions returning s.toList) :
    Silent [.text (String.intercalate ", " ss)] := by
  have hcomma : Parts ", " := by decide +kernel
  induction ss with
  | nil => exact .fixed (by decide +kernel)
  | cons s ss ih =>
    have hs := h s List.mem_cons_self
    cases ss with
    | nil => exact .text (by simpa using hs)
    | cons t ss =>
      have hrest := ih fun s hs => h s (List.mem_cons_of_mem _ hs)
      refine ⟨fun used hmention => ((Silent.text hs).around hcomma hrest).not_mentions used ?_⟩
      simpa [render, String.intercalate_cons_cons] using hmention

namespace Query

variable {table : String}

theorem silent_rowPieces {row : List Operand}
    (h : ∀ o ∈ row, ∀ s ∈ o.texts, ¬Mentions returning s.toList) : Silent (rowPieces row) := by
  have hoperands : Silent (Piece.separated ", " (row.map Operand.pieces)) := by
    refine .separated (by decide +kernel) fun p hp => ?_
    obtain ⟨o, ho, rfl⟩ := List.mem_map.1 hp
    exact o.silent_pieces (h o ho)
  exact .behind (s := "(") (by decide +kernel) (hoperands.before (s := ")") (by decide +kernel))

theorem silent_insertPieces (htable : ¬Mentions returning table.toList) {columns : List String}
    (hcolumns : ∀ s ∈ columns, ¬Mentions returning s.toList) {rows : List (List Operand)}
    (hrows : ∀ row ∈ rows, ∀ o ∈ row, ∀ s ∈ o.texts, ¬Mentions returning s.toList) :
    Silent (insertPieces table columns rows) := by
  unfold insertPieces
  by_cases hnone : columns.isEmpty = true
  · rw [if_pos hnone]
    exact .behind (s := "INSERT INTO ") (by decide +kernel)
      ((Silent.text htable).before (s := " DEFAULT VALUES") (by decide +kernel))
  · rw [if_neg hnone]
    have hall : Silent (Piece.separated ", " (rows.map rowPieces)) := by
      refine .separated (by decide +kernel) fun p hp => ?_
      obtain ⟨row, hrow, rfl⟩ := List.mem_map.1 hp
      exact silent_rowPieces (hrows row hrow)
    have hvalues := (Piece.silent_intercalate hcolumns).around (s := ") VALUES ")
      (by decide +kernel) hall
    exact .behind (s := "INSERT INTO ") (by decide +kernel)
      ((Silent.text htable).around (s := " (") (by decide +kernel) hvalues)

theorem silent_updatePieces (htable : ¬Mentions returning table.toList) (q : Query)
    {assignments : List Assignment}
    (hset : ∀ a ∈ assignments, ∀ s ∈ a.1 :: a.2.texts, ¬Mentions returning s.toList)
    (hwheres : ∀ s ∈ Clause.listTexts q.wheres, ¬Mentions returning s.toList) :
    Silent (q.updatePieces table assignments) := by
  have hall : Silent (Piece.separated ", " (assignments.map assignmentPieces)) := by
    refine .separated (by decide +kernel) fun p hp => ?_
    obtain ⟨a, ha, rfl⟩ := List.mem_map.1 hp
    have htexts := List.forall_mem_cons.1 (hset a ha)
    exact (Silent.text htexts.1).around (s := " = ") (by decide +kernel)
      (a.2.silent_pieces htexts.2)
  have hfront := Silent.behind (s := "UPDATE ") (by decide +kernel)
    ((Silent.text htable).around (s := " SET ") (by decide +kernel) hall)
  exact Clause.silent_listPieces (by decide +kernel) hwheres hfront

theorem silent_deletePieces (htable : ¬Mentions returning table.toList) (q : Query)
    (hwheres : ∀ s ∈ Clause.listTexts q.wheres, ¬Mentions returning s.toList) :
    Silent (q.deletePieces table) := by
  have hfront := (Silent.text htable).behind (s := "DELETE FROM ") (by decide +kernel)
  exact Clause.silent_listPieces (by decide +kernel) hwheres hfront

end Query

namespace Form

/-- Whether a statement of this form changes rows. -/
def Changes : Form → Prop
  | insert _ _ | update _ | delete | truncate => True
  | select | probe | aggregate _ _ => False

instance : DecidablePred Changes := fun f => by
  cases f <;> unfold Changes <;> infer_instance

/-- The texts that a changing statement is written with. -/
def texts (q : Query) : Form → List String
  | insert columns rows =>
    q.table.toList ++ columns ++ rows.flatMap fun row => row.flatMap Operand.texts
  | update assignments =>
    q.table.toList ++ (assignments.flatMap fun a => a.1 :: a.2.texts) ++ Clause.listTexts q.wheres
  | delete => q.table.toList ++ Clause.listTexts q.wheres
  | truncate => q.table.toList
  | select | probe | aggregate _ _ => []

/-- **A changing statement** none of whose texts mentions the word does not mention it. -/
theorem silent_layout {q : Query} {f : Form} {table : String} (htable : q.table = some table)
    (hf : f.Changes) (h : ∀ s ∈ f.texts q, ¬Mentions returning s.toList) :
    Silent (f.layout .postgres table q) := by
  cases f with
  | insert columns rows =>
    simp only [texts, htable, Option.toList_some, List.forall_mem_append, List.forall_mem_singleton,
      List.forall_mem_flatMap] at h
    exact Query.silent_insertPieces h.1.1 h.1.2 h.2
  | update assignments =>
    simp only [texts, htable, Option.toList_some, List.forall_mem_append, List.forall_mem_singleton,
      List.forall_mem_flatMap] at h
    exact q.silent_updatePieces h.1.1 h.1.2 h.2
  | delete =>
    simp only [texts, htable, Option.toList_some, List.forall_mem_append,
      List.forall_mem_singleton] at h
    exact q.silent_deletePieces h.1 h.2
  | truncate =>
    have hname := h table (by simp [texts, htable])
    have hword := (Silent.text hname).behind (s := "TRUNCATE TABLE ") (by decide +kernel)
    refine ⟨fun used hmention => hword.not_mentions used ?_⟩
    simpa [layout, emptying, Piece.render] using hmention
  | _ => exact hf.elim

end Form

end ActiveRow
