import ActiveRow.Statement.Predicate

/-!
# Reading a predicate back

A written predicate is atoms, connectors and parentheses. It is read as SQL reads it: parentheses
first, which gives items joined by connectors. A test may be written as a chain of atoms without
parentheses, as a raw fragment can be; `chain` says how each test is written.

* `read_append`: reading the words of clauses adds their items to the level that is open, whatever
  is open around it and follows behind it.
* `read_listTokens`: so a written predicate is read back as the items of its clauses.
-/

namespace ActiveRow.Predicate

variable {α : Type}

/-- A word of a predicate. -/
inductive Word (α : Type) where
  | atom (a : α)
  | connector (c : Connector)
  | opening
  | closing

/-- An atom, or a group of items joined by connectors. -/
inductive Item (α : Type) where
  | atom (a : α)
  | group (first : Item α) (rest : List (Connector × Item α))

/-- Atoms joined by connectors. -/
structure Chain (α : Type) where
  first : α
  rest : List (Connector × α)

/-! ### Reading -/

/-- What was read of a level of parentheses: nothing, items, or items and a connector. -/
inductive Level (α : Type) where
  | start
  | items (first : Item α) (rest : List (Connector × Item α))
  | linked (first : Item α) (rest : List (Connector × Item α)) (c : Connector)

namespace Level

/-- The level with another item, where an item may stand. -/
def add (i : Item α) : Level α → Option (Level α)
  | start => some (items i [])
  | linked first rest c => some (items first (rest ++ [(c, i)]))
  | items _ _ => none

/-- Whether an item may stand next. -/
def awaitsItem : Level α → Prop
  | items _ _ => False
  | _ => True

/-- The level with another connector, where a connector may stand. -/
def link (c : Connector) : Level α → Option (Level α)
  | items first rest => some (linked first rest c)
  | _ => none

/-- The group that a level is, where it may end. -/
def close : Level α → Option (Item α)
  | items first rest => some (.group first rest)
  | _ => none

/-- The level with more items; the connector of the first counts only behind an item. -/
def extend : Level α → List (Connector × Item α) → Level α
  | l, [] => l
  | start, (_, i) :: more => items i more
  | linked first rest c, (_, i) :: more => items first (rest ++ (c, i) :: more)
  | items first rest, more => items first (rest ++ more)

@[simp] theorem extend_nil (l : Level α) : l.extend [] = l := by cases l <;> rfl

@[simp] theorem items_extend (first : Item α) (rest more : List (Connector × Item α)) :
    (items first rest).extend more = items first (rest ++ more) := by
  cases more with
  | nil => simp
  | cons e more => rfl

end Level

/-- Reads words into the open level; `outer` are the levels around it, the nearest first. -/
def readFrom : List (Level α) → Level α → List (Word α) → Option (Item α)
  | [], l, [] => l.close
  | _ :: _, _, [] => none
  | outer, l, .atom a :: ws => (l.add (.atom a)).bind fun l => readFrom outer l ws
  | outer, l, .connector c :: ws => (l.link c).bind fun l => readFrom outer l ws
  | outer, l, .opening :: ws => readFrom (l :: outer) .start ws
  | o :: outer, l, .closing :: ws => (l.close.bind o.add).bind fun l => readFrom outer l ws
  | [], _, .closing :: _ => none

/-- The group that a whole predicate is. -/
def read (ws : List (Word α)) : Option (Item α) := readFrom [] .start ws

/-! ### Clauses -/

/-- The words of a test that is written as a chain. -/
def Chain.words (c : Chain α) : List (Word α) :=
  .atom c.first :: c.rest.flatMap fun e => [.connector e.1, .atom e.2]

def words (chain : Test → Chain α) : Token → List (Word α)
  | .leaf t => (chain t).words
  | .connector c => [.connector c]
  | .openGroup => [.opening]
  | .closeGroup => [.closing]

/-- Items as one group, if there are any. -/
def grouped (link : Connector) : List (Connector × Item α) → List (Connector × Item α)
  | [] => []
  | (_, first) :: rest => [(link, .group first rest)]

/-- The items of a test, at the level where it stands. -/
def Chain.items (link : Connector) (c : Chain α) : List (Connector × Item α) :=
  (link, .atom c.first) :: c.rest.map fun e => (e.1, .atom e.2)

mutual

/-- The items of a clause, at the level where it stands; a group without any test has none. -/
def items (chain : Test → Chain α) : Clause → List (Connector × Item α)
  | .test link t => (chain t).items link
  | .group link clauses => grouped link (listItems chain clauses)

def listItems (chain : Test → Chain α) : List Clause → List (Connector × Item α)
  | [] => []
  | c :: rest => items chain c ++ listItems chain rest

end

mutual

theorem items_eq_nil_iff (chain : Test → Chain α) : ∀ c : Clause,
    items chain c = [] ↔ c.isVacant = true
  | .test link t => by simp [items, Chain.items, Clause.isVacant]
  | .group link clauses => by
    rw [Clause.isVacant, ← listItems_eq_nil_iff chain clauses, items]
    cases listItems chain clauses <;> simp [grouped]

theorem listItems_eq_nil_iff (chain : Test → Chain α) : ∀ cs : List Clause,
    listItems chain cs = [] ↔ Clause.areVacant cs = true
  | [] => by simp [listItems, Clause.areVacant]
  | c :: cs => by
    simp [listItems, Clause.areVacant, items_eq_nil_iff chain c, listItems_eq_nil_iff chain cs]

end

/-- The items of a clause begin with its connector. -/
theorem head_items (chain : Test → Chain α) (c : Clause) {e : Connector × Item α}
    {rest : List (Connector × Item α)} (h : items chain c = e :: rest) : e.1 = c.link := by
  cases c with
  | test link t =>
    simp only [items, Chain.items, List.cons.injEq] at h
    rw [← h.1]; rfl
  | group link clauses =>
    rw [items] at h
    cases hl : listItems chain clauses with
    | nil => simp [hl, grouped] at h
    | cons a l =>
      simp only [hl, grouped, List.cons.injEq] at h
      rw [← h.1]; rfl

/-- Words of a chain behind its first atom add its atoms to the open level. -/
theorem readFrom_chain (outer : List (Level α)) (ws : List (Word α)) (rest : List (Connector × α)) :
    ∀ (first : Item α) (done : List (Connector × Item α)),
      readFrom outer (.items first done)
          ((rest.flatMap fun e => [.connector e.1, .atom e.2]) ++ ws) =
        readFrom outer (.items first (done ++ rest.map fun e => (e.1, .atom e.2))) ws := by
  induction rest with
  | nil => intro first done; simp
  | cons e rest ih =>
    intro first done
    simp [readFrom, Level.link, Level.add, ih]

/-- Words of a chain add its atoms to a level where an item may stand. -/
theorem readFrom_words (outer : List (Level α)) {l : Level α} (hl : l.awaitsItem) (link : Connector)
    (c : Chain α) (ws : List (Word α)) :
    readFrom outer l (c.words ++ ws) = readFrom outer (l.extend (c.items link)) ws := by
  cases l with
  | start =>
    simp only [Chain.words, List.cons_append, readFrom, Level.add, Option.bind_some, readFrom_chain]
    rfl
  | linked first done k =>
    simp only [Chain.words, List.cons_append, readFrom, Level.add, Option.bind_some, readFrom_chain,
      List.append_assoc]
    rfl
  | items first done => cases hl

/-- Behind the first of two runs of items, the level ends with an item. -/
theorem Level.extend_extend {l : Level α} (hl : l.awaitsItem) {a b : List (Connector × Item α)}
    (ha : a ≠ []) : ∃ first done, l.extend a = items first done ∧
      l.extend (a ++ b) = (items first done).extend b := by
  cases a with
  | nil => exact absurd rfl ha
  | cons e a =>
    cases l with
    | start => exact ⟨e.2, a, rfl, by rw [items_extend]; rfl⟩
    | linked first done k =>
      exact ⟨first, done ++ (k, e.2) :: a, rfl, by rw [items_extend, List.append_assoc]; rfl⟩
    | items first done => cases hl

/-- A connector and items behind an item. -/
theorem Level.linked_extend (first : Item α) (done : List (Connector × Item α))
    {e : Connector × Item α} {k : Connector} (hk : e.1 = k) (more : List (Connector × Item α)) :
    (linked first done k).extend (e :: more) = (items first done).extend (e :: more) := by
  subst hk; rfl

mutual

/-- The words of a clause add its items to a level where an item may stand. -/
theorem read_clause (chain : Test → Chain α) (outer : List (Level α)) (ws : List (Word α)) :
    ∀ (c : Clause) {l : Level α}, l.awaitsItem → c.isVacant = false →
      readFrom outer l (c.tokens.flatMap (words chain) ++ ws) =
        readFrom outer (l.extend (items chain c)) ws
  | .test link t, l, hl, _ => by
    simp only [Clause.tokens, List.flatMap_singleton, words, items]
    exact readFrom_words outer hl link (chain t) ws
  | .group link clauses, l, hl, hc => by
    simp only [Clause.tokens, List.cons_append, List.flatMap_cons, List.flatMap_append,
      List.flatMap_nil, words, List.append_assoc, List.nil_append, readFrom]
    rw [read_append chain (l :: outer) _ clauses (.inl ⟨rfl, rfl⟩), items]
    -- the group is not vacant, so its level has an item and may end
    cases hi : listItems chain clauses with
    | nil =>
      rw [Clause.isVacant, (listItems_eq_nil_iff chain clauses).1 hi] at hc
      cases hc
    | cons e rest =>
      cases l with
      | start => rfl
      | linked first done k => rfl
      | items first done => cases hl

/-- **Reading clauses.** The words of clauses add their items to the open level, which is empty
when the first of them is still to be written, and ends with an item otherwise. -/
theorem read_append (chain : Test → Chain α) (outer : List (Level α)) (ws : List (Word α)) :
    ∀ (cs : List Clause) {first : Bool} {l : Level α},
      (first = true ∧ l = .start ∨ first = false ∧ ∃ i done, l = .items i done) →
        readFrom outer l ((Clause.listTokens first cs).flatMap (words chain) ++ ws) =
          readFrom outer (l.extend (listItems chain cs)) ws
  | [], first, l, _ => by simp [Clause.listTokens, listItems]
  | c :: cs, first, l, h => by
    rw [Clause.listTokens, listItems]
    by_cases hv : c.isVacant = true
    · rw [if_pos hv, (items_eq_nil_iff chain c).2 hv, List.nil_append]
      exact read_append chain outer ws cs h
    · have hne : items chain c ≠ [] := fun h => hv ((items_eq_nil_iff chain c).1 h)
      rw [if_neg hv]
      simp only [List.flatMap_append, List.append_assoc]
      rcases h with ⟨rfl, rfl⟩ | ⟨rfl, i, done, rfl⟩
      · obtain ⟨i, done, h1, h2⟩ := Level.extend_extend (l := .start) trivial hne
          (b := listItems chain cs)
        simp only [if_true, List.flatMap_nil, List.nil_append]
        rw [read_clause chain outer _ c (l := .start) trivial (by simpa using hv), h1, h2]
        exact read_append chain outer ws cs (.inr ⟨rfl, i, done, rfl⟩)
      · obtain ⟨e, more, he⟩ := List.exists_cons_of_ne_nil hne
        simp only [Bool.false_eq_true, if_false, List.flatMap_cons, List.flatMap_nil, words,
          List.append_nil, List.cons_append, List.nil_append, readFrom, Level.link,
          Option.bind_some]
        rw [read_clause chain outer _ c (l := .linked i done c.link) trivial (by simpa using hv),
          he, Level.linked_extend i done (head_items chain c he), Level.items_extend,
          read_append chain outer ws cs (.inr ⟨rfl, i, _, rfl⟩), List.cons_append]
        simp

end

/-- **A written predicate is read back** as the items of its clauses. -/
theorem read_listTokens (chain : Test → Chain α) (cs : List Clause) :
    read ((Clause.listTokens true cs).flatMap (words chain)) =
      match listItems chain cs with
      | [] => none
      | (_, first) :: rest => some (.group first rest) := by
  have h := read_append chain [] [] cs (.inl ⟨rfl, rfl⟩)
  rw [List.append_nil] at h
  rw [read, h]
  cases listItems chain cs with
  | nil => rfl
  | cons e rest => rfl

theorem mem_listItems {chain : Test → Chain α} {cs : List Clause} {e : Connector × Item α}
    (h : e ∈ listItems chain cs) : ∃ c ∈ cs, e ∈ items chain c := by
  induction cs with
  | nil => cases h
  | cons c cs ih =>
    rcases List.mem_append.1 h with h | h
    · exact ⟨c, List.mem_cons_self, h⟩
    · obtain ⟨c', hc', he⟩ := ih h
      exact ⟨c', List.mem_cons_of_mem c hc', he⟩

theorem listItems_append (chain : Test → Chain α) (a b : List Clause) :
    listItems chain (a ++ b) = listItems chain a ++ listItems chain b := by
  induction a with
  | nil => rfl
  | cons c a ih => simp [listItems, ih]

end ActiveRow.Predicate
