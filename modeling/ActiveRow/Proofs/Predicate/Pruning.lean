import Mathlib.Data.List.Chain
import ActiveRow.Proofs.Predicate.Reading

/-!
# Pruned predicates

Groups that hold no test anywhere inside say nothing, and nothing is written for them. A predicate
is pruned when it is rid of them. What is written of a predicate is spelled by the grammar of groups
as its pruned form is, and in no other way.

* `read_of_isGroup`: words are spelled in one way at most, which reading finds.
* `listTokens_prune`: a pruned predicate is written as the predicate itself.
* `isGroup_written_iff`: the one spelling of what is written is the pruned predicate, each connector
  the clause's own.
* `wellJoined_of_isGroup`: words of a group begin an item behind a parenthesis that opens or a
  connector, and nowhere else.
-/

namespace ActiveRow

namespace Clause

/-! ### Tests inside clauses -/

mutual

/-- The tests anywhere inside a clause, in the order in which they stand. -/
def tests : Clause → List Test
  | test _ t => [t]
  | group _ clauses => listTests clauses

def listTests : List Clause → List Test
  | [] => []
  | c :: rest => c.tests ++ listTests rest

end

mutual

theorem isVacant_iff : ∀ c : Clause, c.isVacant = true ↔ c.tests = []
  | test _ _ => by simp [isVacant, tests]
  | group _ clauses => areVacant_iff clauses

theorem areVacant_iff : ∀ cs : List Clause, areVacant cs = true ↔ listTests cs = []
  | [] => by simp [areVacant, listTests]
  | c :: cs => by simp [areVacant, listTests, isVacant_iff c, areVacant_iff cs]

end

/-! ### Pruning -/

mutual

/-- A clause without the groups inside that hold no test. -/
def pruned : Clause → Clause
  | test link t => test link t
  | group link clauses => group link (prune clauses)

/-- Clauses without the groups that hold no test anywhere inside. -/
def prune : List Clause → List Clause
  | [] => []
  | c :: rest => if c.tests.isEmpty then prune rest else c.pruned :: prune rest

end

theorem link_pruned (c : Clause) : c.pruned.link = c.link := by cases c <;> rfl

mutual

theorem tests_pruned : ∀ c : Clause, c.pruned.tests = c.tests
  | test _ _ => rfl
  | group _ clauses => listTests_prune clauses

/-- Pruning loses no test. -/
theorem listTests_prune : ∀ cs : List Clause, listTests (prune cs) = listTests cs
  | [] => rfl
  | c :: cs => by
    rw [prune, listTests]
    by_cases hc : c.tests = []
    · simp [hc, listTests_prune cs]
    · simp [hc, listTests, tests_pruned c, listTests_prune cs]

end

theorem prune_eq_nil_iff (cs : List Clause) : prune cs = [] ↔ listTests cs = [] := by
  constructor
  · intro h
    rw [← listTests_prune, h, listTests]
  · intro h
    induction cs with
    | nil => rfl
    | cons c cs ih =>
      obtain ⟨hc, hcs⟩ := List.append_eq_nil_iff.1 h
      simp [prune, hc, ih hcs]

theorem areVacant_iff_prune (cs : List Clause) : areVacant cs = true ↔ prune cs = [] :=
  (areVacant_iff cs).trans (prune_eq_nil_iff cs).symm

mutual

theorem tokens_pruned : ∀ c : Clause, c.pruned.tokens = c.tokens
  | test _ _ => rfl
  | group _ clauses => by simp only [pruned, tokens, listTokens_prune true clauses]

/-- **A pruned predicate is written as the predicate itself.** -/
theorem listTokens_prune (first : Bool) : ∀ cs : List Clause,
    listTokens first (prune cs) = listTokens first cs
  | [] => rfl
  | c :: cs => by
    rw [prune, listTokens]
    by_cases hc : c.tests = []
    · rw [if_pos (by simpa using hc), if_pos ((isVacant_iff c).2 hc), listTokens_prune first cs]
    · have hv : ¬ c.isVacant = true := fun h => hc ((isVacant_iff c).1 h)
      have hv' : ¬ c.pruned.isVacant = true := fun h =>
        hc ((tests_pruned c).symm.trans ((isVacant_iff _).1 h))
      rw [if_neg (by simpa using hc), if_neg hv, listTokens, if_neg hv', link_pruned, tokens_pruned,
        listTokens_prune false cs]

end

end Clause

namespace Predicate

variable {α : Type}

/-! ### The grammar of groups -/

mutual

/-- An item is an atom, or a group in parentheses. -/
inductive IsItem : List (Word α) → Item α → Prop
  | atom (a : α) : IsItem [.atom a] (.atom a)
  | group {ws : List (Word α)} {first : Item α} {rest : List (Connector × Item α)}
      (h : IsGroup ws first rest) : IsItem (.opening :: (ws ++ [.closing])) (.group first rest)

/-- A group is an item, then connectors and items. -/
inductive IsGroup : List (Word α) → Item α → List (Connector × Item α) → Prop
  | one {ws : List (Word α)} {i : Item α} (h : IsItem ws i) : IsGroup ws i []
  | more {ws us : List (Word α)} {first i : Item α} {rest : List (Connector × Item α)}
      (c : Connector) (h : IsGroup ws first rest) (hi : IsItem us i) :
      IsGroup (ws ++ .connector c :: us) first (rest ++ [(c, i)])

end

mutual

/-- The words of an item add it to the open level. -/
theorem readFrom_of_isItem (outer : List (Level α)) (l : Level α) (us : List (Word α)) :
    ∀ {ws : List (Word α)} {i : Item α}, IsItem ws i →
      readFrom outer l (ws ++ us) = (l.add i).bind fun l => readFrom outer l us
  | _, _, .atom a => by rw [List.singleton_append, readFrom]
  | _, _, .group h => by
    rw [List.cons_append, List.append_assoc, readFrom, readFrom_of_isGroup (l :: outer) _ h]
    rfl

theorem readFrom_of_isGroup (outer : List (Level α)) (us : List (Word α)) :
    ∀ {ws : List (Word α)} {first : Item α} {rest : List (Connector × Item α)},
      IsGroup ws first rest →
        readFrom outer .start (ws ++ us) = readFrom outer (.items first rest) us
  | _, _, _, .one h => by
    rw [readFrom_of_isItem outer .start us h]
    rfl
  | _, _, _, .more c h hi => by
    rw [List.append_assoc, readFrom_of_isGroup outer _ h, List.cons_append, readFrom, Level.link,
      Option.bind_some, readFrom_of_isItem outer _ us hi]
    rfl

end

/-- Whether an item ends with the word. -/
def Word.endsItem : Word α → Bool
  | atom _ | closing => true
  | connector _ | opening => false

/-- Whether an item begins with the word. -/
def Word.beginsItem : Word α → Bool
  | atom _ | opening => true
  | connector _ | closing => false

/-- In parentheses, an item begins behind each word that ends none, and behind no other. So the
words are not empty, begin and end with an item, and have no connector next to another, behind a
parenthesis that opens or before one that closes. -/
def WellJoined (ws : List (Word α)) : Prop :=
  (.opening :: (ws ++ [.closing])).IsChain fun a b => b.beginsItem = !a.endsItem

/-- Joined words may stand between any words that leave room for an item. -/
theorem WellJoined.between {ws : List (Word α)} (h : WellJoined ws) {a b : Word α}
    (ha : a.endsItem = false) (hb : b.beginsItem = false) :
    (a :: (ws ++ [b])).IsChain fun a b => b.beginsItem = !a.endsItem := by
  unfold WellJoined at h
  rw [List.isChain_cons, List.isChain_append] at h ⊢
  obtain ⟨hhead, hws, -, hlast⟩ := h
  refine ⟨fun y hy => ?_, hws, List.isChain_singleton b, fun x hx y hy => ?_⟩
  · cases ws with
    | nil => cases hhead .closing rfl
    | cons w ws => rw [ha]; exact hhead y hy
  · obtain rfl : b = y := by simpa using hy
    rw [hb]
    exact hlast x hx .closing rfl

mutual

theorem wellJoined_of_isItem : ∀ {ws : List (Word α)} {i : Item α}, IsItem ws i → WellJoined ws
  | _, _, .atom a => by simp [WellJoined, Word.beginsItem, Word.endsItem]
  | _, _, .group h => by
    have h := wellJoined_of_isGroup h
    have hpair : [Word.closing, Word.closing].IsChain fun a b : Word α =>
        b.beginsItem = !a.endsItem := by simp [Word.beginsItem, Word.endsItem]
    unfold WellJoined
    rw [List.cons_append, List.isChain_cons_cons, List.append_assoc, ← List.cons_append,
      List.singleton_append, List.isChain_split]
    exact ⟨rfl, h, hpair⟩

/-- **A group is well joined.** -/
theorem wellJoined_of_isGroup : ∀ {ws : List (Word α)} {first : Item α}
    {rest : List (Connector × Item α)}, IsGroup ws first rest → WellJoined ws
  | _, _, _, .one h => wellJoined_of_isItem h
  | _, _, _, .more c h hi => by
    have h := wellJoined_of_isGroup h
    have hi := wellJoined_of_isItem hi
    unfold WellJoined
    rw [List.append_assoc, List.cons_append, ← List.cons_append, List.isChain_split]
    exact ⟨h.between rfl rfl, hi.between rfl rfl⟩

end

/-! ### What is written of a predicate -/

/-- A test as one atom. -/
def alone (t : Test) : Chain Test := ⟨t, []⟩

/-- The words of a predicate, each test being one of them. -/
def written (cs : List Clause) : List (Word Test) :=
  (Clause.listTokens true cs).flatMap (words alone)

mutual

/-- The item that a clause is, where no group in it is empty. -/
def itemOf? : Clause → Option (Item Test)
  | .test _ t => some (.atom t)
  | .group _ clauses => groupOf? clauses

/-- The group that clauses are, each behind its own connector and the first behind none. -/
def groupOf? : List Clause → Option (Item Test)
  | [] => none
  | c :: rest => (itemOf? c).bind fun i => (linkedOf? rest).map (Item.group i)

def linkedOf? : List Clause → Option (List (Connector × Item Test))
  | [] => some []
  | c :: rest => (itemOf? c).bind fun i => (linkedOf? rest).map ((c.link, i) :: ·)

end

/-- A clause that is an item is not vacant. -/
theorem isVacant_of_itemOf? : ∀ {c : Clause} {i : Item Test}, itemOf? c = some i →
    c.isVacant = false
  | .test _ _, _, _ => rfl
  | .group _ [], _, h => by cases h
  | .group _ (c :: rest), _, h => by
    obtain ⟨i, hi, -⟩ := Option.bind_eq_some_iff.1 h
    simp [Clause.isVacant, Clause.areVacant, isVacant_of_itemOf? hi]

mutual

theorem isItem_of_itemOf? : ∀ {c : Clause} {i : Item Test}, itemOf? c = some i →
    IsItem (c.tokens.flatMap (words alone)) i
  | .test _ t, _, h => by
    cases h
    exact .atom t
  | .group _ clauses, _, h => by
    obtain ⟨first, rest, rfl, hg⟩ := isGroup_of_groupOf? h
    simp only [Clause.tokens, List.cons_append, List.flatMap_cons, List.flatMap_append,
      List.flatMap_nil, List.append_nil, words, List.nil_append]
    exact .group hg

theorem isGroup_of_groupOf? : ∀ {cs : List Clause} {i : Item Test}, groupOf? cs = some i →
    ∃ first rest, i = .group first rest ∧ IsGroup (written cs) first rest
  | [], _, h => by cases h
  | c :: cs, _, h => by
    obtain ⟨first, hi, h⟩ := Option.bind_eq_some_iff.1 h
    obtain ⟨rest, hl, rfl⟩ := Option.map_eq_some_iff.1 h
    have hg := isGroup_of_linkedOf? hl (.one (isItem_of_itemOf? hi))
    refine ⟨first, rest, rfl, ?_⟩
    rw [written, Clause.listTokens, if_neg (by simp [isVacant_of_itemOf? hi])]
    simpa only [if_true, List.nil_append, List.flatMap_append] using hg

/-- The tokens of further clauses lengthen a group. -/
theorem isGroup_of_linkedOf? {ws : List (Word Test)} {first : Item Test} : ∀ {cs : List Clause}
    {done more : List (Connector × Item Test)}, linkedOf? cs = some more → IsGroup ws first done →
      IsGroup (ws ++ (Clause.listTokens false cs).flatMap (words alone)) first
        (done ++ more)
  | [], _, _, h, hw => by
    cases h
    simpa [Clause.listTokens] using hw
  | c :: cs, done, _, h, hw => by
    obtain ⟨i, hi, h⟩ := Option.bind_eq_some_iff.1 h
    obtain ⟨more, hl, rfl⟩ := Option.map_eq_some_iff.1 h
    have hg := isGroup_of_linkedOf? hl (.more c.link hw (isItem_of_itemOf? hi))
    rw [Clause.listTokens, if_neg (by simp [isVacant_of_itemOf? hi])]
    simpa [words] using hg

end

/-! ### Pruned predicates are groups -/

mutual

theorem exists_itemOf?_pruned : ∀ c : Clause, c.tests ≠ [] → ∃ i, itemOf? c.pruned = some i
  | .test _ t, _ => ⟨.atom t, rfl⟩
  | .group _ clauses, h => exists_groupOf?_prune clauses h

theorem exists_groupOf?_prune : ∀ cs : List Clause, Clause.listTests cs ≠ [] →
    ∃ i, groupOf? (Clause.prune cs) = some i
  | [], h => absurd rfl h
  | c :: cs, h => by
    rw [Clause.prune]
    by_cases hc : c.tests = []
    · rw [if_pos (by simpa using hc)]
      exact exists_groupOf?_prune cs fun hcs => h (by simp [Clause.listTests, hc, hcs])
    · obtain ⟨i, hi⟩ := exists_itemOf?_pruned c hc
      obtain ⟨l, hl⟩ := exists_linkedOf?_prune cs
      rw [if_neg (by simpa using hc), groupOf?, hi, hl]
      exact ⟨.group i l, rfl⟩

theorem exists_linkedOf?_prune : ∀ cs : List Clause, ∃ l, linkedOf? (Clause.prune cs) = some l
  | [] => ⟨[], rfl⟩
  | c :: cs => by
    obtain ⟨l, hl⟩ := exists_linkedOf?_prune cs
    rw [Clause.prune]
    by_cases hc : c.tests = []
    · exact ⟨l, by rw [if_pos (by simpa using hc), hl]⟩
    · obtain ⟨i, hi⟩ := exists_itemOf?_pruned c hc
      rw [if_neg (by simpa using hc), linkedOf?, hi, hl]
      exact ⟨(c.pruned.link, i) :: l, rfl⟩

end

theorem written_prune (cs : List Clause) : written (Clause.prune cs) = written cs := by
  rw [written, Clause.listTokens_prune, written]

theorem wellJoined_written {cs : List Clause} (h : Clause.prune cs ≠ []) :
    WellJoined (written cs) := by
  have hcs : Clause.listTests cs ≠ [] := fun hcs => h ((Clause.prune_eq_nil_iff cs).2 hcs)
  obtain ⟨i, hi⟩ := exists_groupOf?_prune cs hcs
  obtain ⟨first, rest, rfl, hg⟩ := isGroup_of_groupOf? hi
  exact written_prune cs ▸ wellJoined_of_isGroup hg

theorem not_wellJoined_nil : ¬WellJoined ([] : List (Word α)) := by
  simp [WellJoined, Word.beginsItem, Word.endsItem]

theorem written_eq_nil_iff (cs : List Clause) : written cs = [] ↔ Clause.prune cs = [] := by
  constructor
  · intro h
    by_contra hne
    exact not_wellJoined_nil (h ▸ wellJoined_written hne)
  · intro h
    rw [← written_prune, h]
    rfl

end Predicate

end ActiveRow
