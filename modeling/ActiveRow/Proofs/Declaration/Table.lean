import ActiveRow.Declaration
import ActiveRow.Proofs.Source.Leads

/-!
# Tables of declared types

The table of a type is the one that an attribute names, or else it follows from the name of the
type. An attribute names a table where it gives a text to `table` outside of brackets.

* `Source.textsGiven_groupEnd`: what is given in a group is not given outside of it.
* `Blueprint.table_of_readItems`: what an attribute does to the table.
* `Declaration.table_of_blueprint`: where the table of a declared type is from.
-/

namespace ActiveRow

namespace Source

/-- The text that is given to a name at the front. -/
def given? (name : String) : List Lexeme → Option String
  | .name w :: .sign '=' _ :: .text value _ :: _ => if w = name then some value else none
  | _ => none

/-- The texts that are given to a name outside of brackets, of which so many are open. -/
def textsGiven (name : String) (depth : Nat) : List Lexeme → List String
  | [] => []
  | t :: ts =>
    match t with
    | .opens _ => textsGiven name (depth + 1) ts
    | .closes _ => textsGiven name (depth - 1) ts
    | _ =>
      if depth = 0 then (given? name (t :: ts)).toList ++ textsGiven name 0 ts
      else textsGiven name depth ts

variable {name : String}

theorem textsGiven_groupEnd (depth : Nat) (ts : List Lexeme) :
    textsGiven name 0 (groupEnd depth ts).2 = textsGiven name (depth + 1) ts := by
  induction ts generalizing depth with
  | nil => rfl
  | cons t ts ih =>
    cases t with
    | closes b =>
      cases depth with
      | zero => rfl
      | succ depth => exact ih depth
    | _ => simp [groupEnd, textsGiven, ih]

theorem textsGiven_tail_subset {t : Lexeme} (ht : !t.isBracket) (ts : List Lexeme) :
    textsGiven name 0 ts ⊆ textsGiven name 0 (t :: ts) := by
  cases t with
  | opens | closes => cases ht
  | _ => exact List.subset_append_right _ _

theorem textsGiven_signs {cs : List Char} {ts rest : List Lexeme} (h : signs? cs ts = some rest) :
    textsGiven name 0 rest ⊆ textsGiven name 0 ts := by
  fun_induction signs? cs ts with
  | case1 =>
    cases h
    exact List.Subset.refl _
  | case2 =>
    cases h
    exact textsGiven_tail_subset rfl _
  | case4 _ _ _ _ _ _ _ ih => exact List.Subset.trans (ih h) (textsGiven_tail_subset rfl _)
  | case3 | case5 | case6 => cases h

theorem exists_of_sign {c : Char} {ts rest : List Lexeme} (h : signs? [c] ts = some rest) :
    ∃ joined, ts = .sign c joined :: rest := by
  cases ts with
  | nil => cases h
  | cons t ts =>
    cases t with
    | sign d joined =>
      obtain ⟨rfl, ht⟩ := Option.ite_none_right_eq_some.1 h
      cases ht
      exact ⟨joined, rfl⟩
    | _ => cases h

/-- No texts but these are given to a name from here on. -/
def Gives (name : String) (texts : List String) (p : Place) : Prop :=
  textsGiven name 0 p.lexemes ⊆ texts

/-- No texts but these are given to a name from here on, with another name before. -/
def GivesBehind (w name : String) (texts : List String) (p : Place) : Prop :=
  textsGiven name 0 (.name w :: p.lexemes) ⊆ texts

namespace Gives

variable {texts : List String}

theorem tail {p p' : Place} {t : Lexeme} (h : Gives name texts p) (ht : !t.isBracket)
    (hp : p.lexemes = t :: p'.lexemes) : Gives name texts p' := by
  rw [Gives, hp] at h
  exact List.Subset.trans (textsGiven_tail_subset ht _) h

theorem behind {p p' : Place} {w : String} (h : Gives name texts p)
    (hp : p.lexemes = .name w :: p'.lexemes) : GivesBehind w name texts p' := by
  rw [GivesBehind, ← hp]
  exact h

theorem anyName : Leads (Gives name texts) Reader.anyName fun _ => Gives name texts :=
  Leads.anyName.imp_right fun _ _ ⟨_, hp, hname⟩ => hp.tail rfl hname

theorem text : Leads (Gives name texts) Reader.text fun _ => Gives name texts :=
  Leads.text.imp_right fun _ _ ⟨_, _, hp, htext⟩ => hp.tail rfl htext

theorem sign? (s : String) :
    Leads (Gives name texts) (Reader.sign? s) fun _ => Gives name texts := by
  refine (Leads.sign? s).imp_right ?_
  rintro _ p' (⟨-, p, hp, hrest⟩ | ⟨-, hp⟩)
  · exact List.Subset.trans (textsGiven_signs hrest) hp
  · exact hp

theorem sign (s : String) :
    Leads (Gives name texts) (Reader.sign s) fun _ => Gives name texts :=
  (Leads.sign s).imp_right fun _ _ ⟨_, hp, hrest⟩ =>
    List.Subset.trans (textsGiven_signs hrest) hp

/-- A group is passed over, whatever is read in it. -/
theorem enter (b : Bracket) :
    Leads (Gives name texts) (Reader.enter b) fun behind _ => Gives name texts behind := by
  refine (Leads.enter b).imp_right ?_
  rintro behind _ ⟨p, ts, hp, hts, hbehind⟩
  rw [Gives, hts] at hp
  rw [Gives, hbehind, textsGiven_groupEnd]
  exact hp

theorem leave (behind : Place) :
    Leads (fun _ => Gives name texts behind) (Reader.leave behind) fun _ => Gives name texts := by
  intro p _ p' hbehind hrun
  cases hrun
  exact hbehind

end Gives

end Source

open Source Source.Reader

variable {table : String} {texts : List String}

theorem itemName_leads :
    Leads (Gives table texts) itemName fun name p => Gives table texts p ∧
      (name = some table → GivesBehind table table texts p) := by
  refine (Gives.sign? "::").bind fun isRooted => Leads.left.bind fun ts => ?_
  refine Leads.ite (fun _ => (Leads.fail _).bind_of_false) fun _ => ?_
  refine Leads.ite (fun _ => (Leads.throw _).bind_of_false) fun _ => ?_
  refine Leads.anyName.bind fun first => ?_
  -- As long as the name is not a path, nothing has been passed behind its first word.
  let Q (isPath : Bool) (p : Place) : Prop := Gives table texts p ∧
    (isPath = false → GivesBehind first table texts p)
  have hstart (p' : Place) : (∃ p, (Gives table texts p ∧ p.lexemes = ts) ∧
      p.lexemes = .name first :: p'.lexemes) → Q isRooted p' :=
    fun ⟨p, ⟨hp, _⟩, hp'⟩ => ⟨hp.tail rfl hp', fun _ => hp.behind hp'⟩
  have hsign (isPath : Bool) (p' : Place) :
      (∃ p, Q isPath p ∧ signs? "::".toList p.lexemes = some p'.lexemes) → Gives table texts p' :=
    fun ⟨p, hp, hrest⟩ => List.Subset.trans (textsGiven_signs hrest) hp.1
  refine Leads.bind (Q := Q) ((Leads.repeating (fun isPath => ?_) isRooted).imp_left hstart)
    fun isPath => Leads.pure _ ?_
  · exact Leads.sign?_bind
      ((Gives.anyName.imp_left (hsign isPath)).discard.bind fun _ =>
        Leads.pure _ fun _ hp => ⟨hp, nofun⟩)
      (Leads.pure _ fun _ => id)
  · rintro p ⟨hp, hbehind⟩
    refine ⟨hp, fun h => ?_⟩
    cases isPath with
    | true => cases h
    | false =>
      cases h
      exact hbehind rfl

theorem value_leads :
    Leads (GivesBehind table table texts) value fun text p =>
      Gives table texts p ∧ text ∈ texts := by
  refine (Leads.sign "=").bind fun _ => Leads.text.imp_right ?_
  rintro text p' ⟨p₁, written, ⟨p, hp, hsign⟩, htext⟩
  obtain ⟨joined, hjoined⟩ := exists_of_sign (c := '=') hsign
  rw [GivesBehind, hjoined, htext] at hp
  simpa [textsGiven, given?, Gives, and_comm] using hp

theorem value_keeps : Leads (Gives table texts) value fun _ => Gives table texts :=
  (Gives.sign "=").bind fun _ => Gives.text

theorem names_leads :
    Leads (Gives table texts) Blueprint.names fun _ => Gives table texts :=
  (Gives.enter .round).bind fun behind =>
    (Leads.const _).bind fun _ => (Gives.leave behind).bind fun _ => Leads.pure _ fun _ => id

theorem Source.Leads.lift {α : Type} {P : Place → Prop} {Q : α → Place → Prop} {r : Reader α}
    (h : Leads P r Q) : Leads P (liftM r : ItemReader α) Q :=
  fun _ _ _ hp hrun => h hp (ItemReader.run_lift.1 hrun)

namespace Blueprint

/-- The items of an attribute, as they are written. -/
def itemsSource (items : List Item) : List Lexeme :=
  List.intercalate [.comma] (items.map Item.source)

theorem reader_leads (kind : RelationKind) :
    Leads (Gives table texts) (DeclaredRelation.reader kind) fun _ => Gives table texts := by
  refine (Gives.enter .round).lift.bind fun behind => ?_
  refine Leads.bind (Leads.const _) fun (path, written) => ?_
  refine Leads.bind (Leads.const _) fun options => ?_
  refine Leads.bind (Leads.const _) fun relation => ?_
  exact (Gives.leave behind).lift.bind fun _ => Leads.pure _ fun _ => id

/-- What holds of a blueprint after some items: its table is the one before them, or it is given in
them. -/
def TableFrom (before : String) (texts : List String) (b : Blueprint) (p : Place) : Prop :=
  Gives "table" texts p ∧ (b.table = before ∨ b.table ∈ texts)

theorem readItem_leads {before : String} (b : Blueprint) (name : Option String)
    (hb : b.table = before ∨ b.table ∈ texts) :
    Leads (fun p => Gives "table" texts p ∧
        (name = some "table" → GivesBehind "table" "table" texts p))
      (readItem b name) (TableFrom before texts) := by
  unfold readItem
  -- Only here is the table changed; all other items pass on without a text given to `table`.
  refine Leads.ite (fun hname => ?_) fun _ => ?_
  · exact (value_leads.imp_left fun p hp => hp.2 hname).lift.bind fun text =>
      Leads.pure _ fun p hp => ⟨hp.1, .inr hp.2⟩
  have hgives {r : ItemReader Blueprint}
      (hr : Leads (Gives "table" texts) r (TableFrom before texts)) :
      Leads (fun p => Gives "table" texts p ∧
        (name = some "table" → GivesBehind "table" "table" texts p)) r (TableFrom before texts) :=
    hr.imp_left fun _ hp => hp.1
  have hdone {b' : Blueprint} (htable : b'.table = b.table) :
      Leads (Gives "table" texts) (pure b' : ItemReader Blueprint) (TableFrom before texts) :=
    Leads.pure _ fun p hp => ⟨hp, htable.symm ▸ hb⟩
  refine hgives (Leads.ite (fun _ => ?_) fun _ => ?_)
  · exact value_keeps.lift.bind fun _ => hdone rfl
  refine Leads.ite (fun _ => hdone rfl) fun _ => ?_
  refine Leads.ite (fun _ => hdone rfl) fun _ => ?_
  refine Leads.ite (fun _ => names_leads.lift.bind fun _ => hdone rfl) fun _ => ?_
  refine Leads.ite (fun _ => names_leads.lift.bind fun _ => hdone rfl) fun _ => ?_
  refine Leads.ite (fun _ => ?_) fun _ => ?_
  · refine (Gives.enter .round).lift.bind fun behind => ?_
    refine Leads.bind (Leads.const _) fun _ => ?_
    exact (Gives.leave behind).lift.bind fun _ => hdone rfl
  · split
    · next kind _ => exact (reader_leads kind).bind fun _ => hdone rfl
    · exact Leads.throw _

theorem itemList_leads {before : String} (b : Blueprint) :
    Leads (TableFrom before texts b) (itemList readItem b) (TableFrom before texts) := by
  refine Leads.repeating (fun b => ?_) b
  refine Leads.given fun hb => ?_
  refine itemName_leads.lift.bind fun name => (readItem_leads b name hb).bind fun b' => ?_
  refine Leads.left.lift.bind fun ts => Leads.ite (fun _ => ?_) fun _ => ?_
  · exact Leads.pure _ fun _ hp => hp.1
  have hsign : Leads (fun p => TableFrom before texts b' p ∧ p.lexemes = ts) (sign ",")
      fun _ => TableFrom before texts b' :=
    (Leads.given fun hb' => (Gives.sign ",").imp_right fun _ _ hp => ⟨hp, hb'⟩).imp_left
      fun _ hp => hp.1
  refine hsign.lift.bind fun _ => Leads.left.lift.bind fun ts => Leads.pure _ fun p hp => ?_
  split
  · exact hp.1
  · exact hp.1

/-- **An attribute leaves the table as it is**, or gives a text to `table`. -/
theorem table_of_readItems {b b' : Blueprint} {items : List Item}
    (h : b.readItems items = .ok b') :
    b'.table = b.table ∨ b'.table ∈ textsGiven "table" 0 (itemsSource items) := by
  simp only [readItems] at h
  split at h
  · cases h
    exact .inl rfl
  have hstart : TableFrom b.table (textsGiven "table" 0 (itemsSource items)) b
      { lexemes := itemsSource items } := ⟨List.Subset.refl _, .inl rfl⟩
  obtain ⟨⟨b₁, place⟩, hrun, hend⟩ := exists_of_bind_eq_ok h
  have htable : b₁.table = b.table ∨ _ := (itemList_leads b hstart hrun).2
  split at hend
  · cases hend
  · cases hend
    exact htable

end Blueprint

namespace Declaration

open Blueprint (itemsSource)

theorem table_of_foldlM {attributes : List (List Item)} {b b' : Blueprint}
    (h : attributes.foldlM Blueprint.readItems b = .ok b') :
    b'.table = b.table ∨
      ∃ items ∈ attributes, b'.table ∈ textsGiven "table" 0 (itemsSource items) := by
  induction attributes generalizing b with
  | nil =>
    cases h
    exact .inl rfl
  | cons items attributes ih =>
    rw [List.foldlM_cons] at h
    obtain ⟨b₁, hitems, hrest⟩ := exists_of_bind_eq_ok h
    rcases ih hrest with htable | ⟨items', hmem, htable⟩
    · rcases Blueprint.table_of_readItems hitems with h₁ | h₁
      · exact .inl (htable.trans h₁)
      · exact .inr ⟨items, List.mem_cons_self, htable ▸ h₁⟩
    · exact .inr ⟨items', List.mem_cons_of_mem _ hmem, htable⟩

/-- **The table of a declared type** follows from its name, or an attribute names it. -/
theorem table_of_blueprint {d : Declaration} {b : Blueprint} (h : d.blueprint = .ok b) :
    b.table = tableName (typeName d.name) ∨
      ∃ items ∈ d.attributes, b.table ∈ textsGiven "table" 0 (itemsSource items) := by
  unfold blueprint at h
  split at h
  · cases h
  · cases h
  · cases h
  · cases h
  split at h
  · cases h
  · have htable := table_of_foldlM h
    dsimp only at htable
    exact htable

end Declaration

end ActiveRow
