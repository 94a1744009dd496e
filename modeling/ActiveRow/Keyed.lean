/-!
# Insertion-ordered maps

A map from names to values that keeps the order in which its names were first written. Writing a
name again overwrites its value in place. `Pairs` holds the operations on plain lists of pairs,
`Keyed` is such a list without a repeated name.

* `Pairs.get?_put`: what a write does to every look-up;
* `Pairs.keys_put`: a write adds its name at the end, or no name at all;
* `Pairs.get?_erase`: an erasure forgets one name only;
* `Keyed.get?_insertMany`: what is written last counts.
-/

namespace ActiveRow

namespace Pairs

variable {α β : Type}

/-- The names, in order. -/
def keys (entries : List (String × α)) : List String := entries.map Prod.fst

/-- The value under `key`. -/
def get? (key : String) : List (String × α) → Option α
  | [] => none
  | (k, v) :: rest => if k = key then some v else get? key rest

/-- Overwrites the value under `key` in place, or appends a new entry. -/
def put (key : String) (value : α) : List (String × α) → List (String × α)
  | [] => [(key, value)]
  | (k, v) :: rest => if k = key then (k, value) :: rest else (k, v) :: put key value rest

/-- Removes the entry of `key`; the others keep their order. -/
def erase (key : String) : List (String × α) → List (String × α)
  | [] => []
  | (k, v) :: rest => if k = key then rest else (k, v) :: erase key rest

@[simp] theorem keys_nil : keys ([] : List (String × α)) = [] := rfl

@[simp] theorem keys_cons (e : String × α) (l : List (String × α)) :
    keys (e :: l) = e.1 :: keys l := rfl

@[simp] theorem keys_append (l m : List (String × α)) : keys (l ++ m) = keys l ++ keys m := by
  simp [keys]

theorem get?_put (key k : String) (value : α) (l : List (String × α)) :
    get? k (put key value l) = if key = k then some value else get? k l := by
  induction l with
  | nil => simp [put, get?]
  | cons e l ih =>
    obtain ⟨k', v⟩ := e
    by_cases h : k' = key
    · subst h
      by_cases h2 : k' = k <;> simp [put, get?, h2]
    · by_cases h2 : k' = k
      · subst h2
        simp [put, get?, h, Ne.symm h]
      · simp [put, get?, h, h2, ih]

theorem keys_put (key : String) (value : α) (l : List (String × α)) :
    keys (put key value l) = if key ∈ keys l then keys l else keys l ++ [key] := by
  induction l with
  | nil => simp [put]
  | cons e l ih =>
    obtain ⟨k, v⟩ := e
    by_cases h : k = key
    · simp [put, h]
    · by_cases h2 : key ∈ keys l <;> simp [put, h, ih, h2, Ne.symm h]

theorem get?_eq_none_iff (key : String) (l : List (String × α)) :
    get? key l = none ↔ key ∉ keys l := by
  induction l with
  | nil => simp [get?]
  | cons e l ih =>
    obtain ⟨k, v⟩ := e
    by_cases h : k = key
    · simp [get?, h]
    · simp [get?, h, ih, Ne.symm h]

theorem mem_of_get? {key : String} {v : α} {l : List (String × α)} (h : get? key l = some v) :
    (key, v) ∈ l := by
  induction l with
  | nil => cases h
  | cons e l ih =>
    obtain ⟨k, w⟩ := e
    by_cases hk : k = key
    · subst hk
      simp only [get?, if_true, Option.some.injEq] at h
      simp [h]
    · simp only [get?, hk, if_false] at h
      exact List.mem_cons_of_mem _ (ih h)

theorem get?_of_mem {key : String} {v : α} {l : List (String × α)} (hl : (keys l).Nodup)
    (h : (key, v) ∈ l) : get? key l = some v := by
  induction l with
  | nil => cases h
  | cons e l ih =>
    simp only [keys_cons, List.nodup_cons] at hl
    rcases List.mem_cons.1 h with rfl | h
    · simp [get?]
    · have hk : e.1 ≠ key := fun hk => hl.1 (hk ▸ List.mem_map_of_mem (f := Prod.fst) h)
      simp only [get?, hk, if_false]
      exact ih hl.2 h

theorem keys_erase (key : String) (l : List (String × α)) :
    keys (erase key l) = (keys l).erase key := by
  induction l with
  | nil => rfl
  | cons e l ih =>
    obtain ⟨k, v⟩ := e
    by_cases h : k = key <;> simp [erase, h, ih]

theorem get?_erase {l : List (String × α)} (hl : (keys l).Nodup) (key k : String) :
    get? k (erase key l) = if key = k then none else get? k l := by
  induction l with
  | nil => simp [erase, get?]
  | cons e l ih =>
    obtain ⟨k', v⟩ := e
    simp only [keys_cons, List.nodup_cons] at hl
    by_cases h : k' = key
    · subst h
      by_cases h2 : k' = k
      · subst h2
        simpa [erase] using (get?_eq_none_iff k' l).2 hl.1
      · simp [erase, get?, h2]
    · by_cases h2 : k' = k
      · subst h2
        simp [erase, get?, h, Ne.symm h]
      · simp [erase, get?, h, h2, ih hl.2]

theorem get?_filter (p : String → Bool) (k : String) (l : List (String × α)) :
    get? k (l.filter fun e => p e.1) = if p k then get? k l else none := by
  induction l with
  | nil => simp [get?]
  | cons e l ih =>
    obtain ⟨k', v⟩ := e
    by_cases h : k' = k
    · subst h
      cases hp : p k' <;> simp [hp, get?, ih]
    · cases hp : p k' <;> simp [hp, get?, h, ih]

theorem nodup_put {l : List (String × α)} (h : (keys l).Nodup) (key : String) (value : α) :
    (keys (put key value l)).Nodup := by
  rw [keys_put]
  split
  · exact h
  · rename_i hk
    exact List.nodup_append.2 ⟨h, by simp, fun a ha b hb => by simp_all; rintro rfl; exact hk ha⟩

theorem nodup_erase {l : List (String × α)} (h : (keys l).Nodup) (key : String) :
    (keys (erase key l)).Nodup := by
  rw [keys_erase]
  exact h.erase key

theorem nodup_filter {l : List (String × α)} (h : (keys l).Nodup) (p : String × α → Bool) :
    (keys (l.filter p)).Nodup :=
  h.sublist (List.filter_sublist.map _)

end Pairs

/-- A list of named values without a repeated name. -/
structure Keyed (α : Type) where
  entries : List (String × α)
  nodup : (Pairs.keys entries).Nodup

namespace Keyed

variable {α β : Type}

/-- The map without entries. -/
def empty : Keyed α := ⟨[], List.nodup_nil⟩

instance : Inhabited (Keyed α) := ⟨empty⟩

def keys (m : Keyed α) : List String := Pairs.keys m.entries

def get? (m : Keyed α) (key : String) : Option α := Pairs.get? key m.entries

def contains (m : Keyed α) (key : String) : Bool := (m.get? key).isSome

/-- Overwrites the value under `key` in place, or appends a new entry. -/
def insert (m : Keyed α) (key : String) (value : α) : Keyed α :=
  ⟨Pairs.put key value m.entries, Pairs.nodup_put m.nodup key value⟩

def erase (m : Keyed α) (key : String) : Keyed α :=
  ⟨Pairs.erase key m.entries, Pairs.nodup_erase m.nodup key⟩

def filter (m : Keyed α) (p : String × α → Bool) : Keyed α :=
  ⟨m.entries.filter p, Pairs.nodup_filter m.nodup p⟩

/-- Writes every pair in turn: a repeated name keeps its first place and its last value. -/
def insertMany (m : Keyed α) (pairs : List (String × α)) : Keyed α :=
  pairs.foldl (fun acc e => acc.insert e.1 e.2) m

/-- The map of a list of pairs. -/
def ofList (pairs : List (String × α)) : Keyed α := empty.insertMany pairs

/-- Changes the value under `key`, if there is one. -/
def modify (m : Keyed α) (key : String) (f : α → α) : Keyed α :=
  match m.get? key with
  | some v => m.insert key (f v)
  | none => m

theorem get?_insert (m : Keyed α) (key k : String) (value : α) :
    (m.insert key value).get? k = if key = k then some value else m.get? k :=
  Pairs.get?_put key k value m.entries

theorem keys_insert (m : Keyed α) (key : String) (value : α) :
    (m.insert key value).keys = if key ∈ m.keys then m.keys else m.keys ++ [key] :=
  Pairs.keys_put key value m.entries

theorem mem_keys_insert {m : Keyed α} {key : String} (k : String) (v : α) (h : key ∈ m.keys) :
    key ∈ (m.insert k v).keys := by
  rw [keys_insert]
  split
  · exact h
  · exact List.mem_append_left _ h

theorem get?_erase (m : Keyed α) (key k : String) :
    (m.erase key).get? k = if key = k then none else m.get? k :=
  Pairs.get?_erase m.nodup key k

theorem get?_eq_none_iff (m : Keyed α) (key : String) : m.get? key = none ↔ key ∉ m.keys :=
  Pairs.get?_eq_none_iff key m.entries

@[simp] theorem get?_empty (key : String) : (empty : Keyed α).get? key = none := rfl

@[simp] theorem entries_empty : (empty : Keyed α).entries = [] := rfl

theorem get?_filter (m : Keyed α) (p : String → Bool) (k : String) :
    (m.filter fun e => p e.1).get? k = if p k then m.get? k else none :=
  Pairs.get?_filter p k m.entries

theorem insertMany_cons (m : Keyed α) (e : String × α) (pairs : List (String × α)) :
    m.insertMany (e :: pairs) = (m.insert e.1 e.2).insertMany pairs := rfl

/-- Writing takes no name away. -/
theorem mem_keys_insertMany {key : String} (pairs : List (String × α)) : ∀ {m : Keyed α},
    key ∈ m.keys → key ∈ (m.insertMany pairs).keys := by
  induction pairs with
  | nil => exact id
  | cons e pairs ih =>
    intro m h
    rw [insertMany_cons]
    exact ih (mem_keys_insert e.1 e.2 h)

/-- Written pairs count before what was there. -/
theorem get?_insertMany (pairs : List (String × α)) (k : String) : ∀ m : Keyed α,
    (m.insertMany pairs).get? k = ((ofList pairs).get? k).or (m.get? k) := by
  induction pairs with
  | nil => intro m; rfl
  | cons e pairs ih =>
    intro m
    rw [ofList, insertMany_cons, insertMany_cons, ih, ih, get?_insert, get?_insert,
      Option.or_assoc]
    split <;> rfl

/-- Of several pairs of one name the last counts. -/
theorem get?_ofList_cons (e : String × α) (pairs : List (String × α)) (k : String) :
    (ofList (e :: pairs)).get? k =
      ((ofList pairs).get? k).or (if e.1 = k then some e.2 else none) := by
  rw [ofList, insertMany_cons, get?_insertMany, get?_insert]
  rfl

/-- The entries of a map write the map. -/
theorem get?_ofList_entries (m : Keyed α) (k : String) : (ofList m.entries).get? k = m.get? k := by
  obtain ⟨entries, nodup⟩ := m
  show (ofList entries).get? k = Pairs.get? k entries
  induction entries with
  | nil => rfl
  | cons e l ih =>
    obtain ⟨k', v⟩ := e
    simp only [Pairs.keys_cons, List.nodup_cons] at nodup
    rw [get?_ofList_cons, ih nodup.2]
    by_cases h : k' = k
    · subst h
      simp [Pairs.get?, (Pairs.get?_eq_none_iff k' l).2 nodup.1]
    · simp [Pairs.get?, h]

theorem mem_of_get?_ofList {pairs : List (String × α)} {k : String} {v : α}
    (h : (ofList pairs).get? k = some v) : (k, v) ∈ pairs := by
  induction pairs with
  | nil => cases h
  | cons e pairs ih =>
    rw [get?_ofList_cons] at h
    rcases Option.or_eq_some_iff.1 h with h | ⟨-, h⟩
    · exact List.mem_cons_of_mem _ (ih h)
    · by_cases hk : e.1 = k
      · subst hk
        rw [if_pos rfl] at h
        obtain rfl := Option.some.inj h
        exact List.mem_cons_self
      · simp [hk] at h

theorem get?_ofList_eq_none_iff (pairs : List (String × α)) (k : String) :
    (ofList pairs).get? k = none ↔ k ∉ Pairs.keys pairs := by
  induction pairs with
  | nil => simp [ofList, insertMany]
  | cons e pairs ih =>
    rw [get?_ofList_cons, Option.or_eq_none_iff, ih, Pairs.keys_cons, List.mem_cons, not_or,
      and_comm]
    refine and_congr_left fun _ => ?_
    by_cases hk : e.1 = k
    · simp [hk]
    · simp [hk, Ne.symm hk]

@[ext] theorem ext {m n : Keyed α} (h : m.entries = n.entries) : m = n := by
  cases m; cases n; cases h; rfl

end Keyed

end ActiveRow
