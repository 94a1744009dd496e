import Mathlib.Data.List.Induction
import ActiveRow.Collection

/-!
# Dropping repeats

Of items that repeat one another only the first stays. Which items are repeats is seen by a name
that they share. What is kept depends on nothing else, so names can be exchanged for whatever they
stand for.

* `KeepsFirst`: what is kept of a list, item by item.
* `KeepsFirst.unique`, `KeepsFirst.pairwise`, `KeepsFirst.find?_eq`: there is one such list, nothing
  in it repeats, and what is looked for is found where it was found before.
* `Collection.keepsFirst_distinctOn`, `Collection.distinctOn_distinctOn`: dropping records by their
  names, once and again.
-/

namespace ActiveRow

variable {α : Type}

/-- **What is kept when repeats are dropped**: an item stays unless it repeats an earlier one, be
that kept or not. -/
inductive KeepsFirst (repeats : α → α → Prop) : List α → List α → Prop
  | nil : KeepsFirst repeats [] []
  | keep {l kept : List α} (h : KeepsFirst repeats l kept) {x : α} (new : ∀ y ∈ l, ¬repeats y x) :
      KeepsFirst repeats (l ++ [x]) (kept ++ [x])
  | drop {l kept : List α} (h : KeepsFirst repeats l kept) {x y : α} (seen : y ∈ l)
      (again : repeats y x) : KeepsFirst repeats (l ++ [x]) kept

namespace KeepsFirst

variable {repeats repeats' : α → α → Prop} {l kept kept' : List α}

theorem sublist (h : KeepsFirst repeats l kept) : kept.Sublist l := by
  induction h with
  | nil => exact .slnil
  | keep _ _ ih => exact ih.append (.refl _)
  | drop _ _ _ ih => exact ih.trans (List.sublist_append_left _ _)

/-- Only the items of the list count. -/
theorem congr (h : KeepsFirst repeats l kept)
    (hsame : ∀ y ∈ l, ∀ x ∈ l, repeats y x ↔ repeats' y x) : KeepsFirst repeats' l kept := by
  induction h with
  | nil => exact .nil
  | keep _ new ih =>
    refine .keep (ih fun y hy x hx => ?_) fun y hy hagain => new y hy ?_
    · exact hsame y (List.mem_append_left _ hy) x (List.mem_append_left _ hx)
    · exact (hsame y (List.mem_append_left _ hy) _ (by simp)).2 hagain
  | drop _ seen again ih =>
    refine .drop (ih fun y hy x hx => ?_) seen ?_
    · exact hsame y (List.mem_append_left _ hy) x (List.mem_append_left _ hx)
    · exact (hsame _ (List.mem_append_left _ seen) _ (by simp)).1 again

/-- **There is one such list.** -/
theorem unique (h : KeepsFirst repeats l kept) (h' : KeepsFirst repeats l kept') :
    kept = kept' := by
  induction h generalizing kept' with
  | nil =>
    generalize hnil : [] = l' at h'
    cases h' with
    | nil => rfl
    | keep _ _ => simp at hnil
    | drop _ _ _ => simp at hnil
  | @keep l kept _ x new ih =>
    generalize hl : l ++ [x] = l' at h'
    cases h' with
    | nil => simp at hl
    | keep h' _ =>
      obtain ⟨rfl, rfl⟩ := List.append_singleton_inj.1 hl
      rw [ih h']
    | drop _ seen again =>
      obtain ⟨rfl, rfl⟩ := List.append_singleton_inj.1 hl
      exact absurd again (new _ seen)
  | @drop l kept _ x y seen again ih =>
    generalize hl : l ++ [x] = l' at h'
    cases h' with
    | nil => simp at hl
    | keep _ new =>
      obtain ⟨rfl, rfl⟩ := List.append_singleton_inj.1 hl
      exact absurd again (new y seen)
    | drop h' _ _ =>
      obtain ⟨rfl, rfl⟩ := List.append_singleton_inj.1 hl
      exact ih h'

/-- **Nothing that is kept repeats** something that is kept before it. -/
theorem pairwise (h : KeepsFirst repeats l kept) : kept.Pairwise fun y x => ¬repeats y x := by
  induction h with
  | nil => exact .nil
  | keep h new ih =>
    refine List.pairwise_append.2 ⟨ih, List.pairwise_singleton _ _, fun y hy x hx => ?_⟩
    rw [List.mem_singleton.1 hx]
    exact new y (h.sublist.subset hy)
  | drop _ _ _ ih => exact ih

/-- Where nothing repeats, all is kept. -/
theorem of_pairwise (h : l.Pairwise fun y x => ¬repeats y x) : KeepsFirst repeats l l := by
  induction l using List.reverseRecOn with
  | nil => exact .nil
  | append_singleton l x ih =>
    obtain ⟨hl, -, hx⟩ := List.pairwise_append.1 h
    exact .keep (ih hl) fun y hy => hx y hy x List.mem_cons_self

/-- **What is looked for is found where it was found before**, if repeats are found alike. -/
theorem find?_eq {p : α → Bool} (h : KeepsFirst repeats l kept)
    (hp : ∀ y x, repeats y x → p x = true → p y = true) : kept.find? p = l.find? p := by
  induction h with
  | nil => rfl
  | keep _ _ ih => rw [List.find?_append, List.find?_append, ih]
  | @drop l kept _ x y seen again ih =>
    rw [List.find?_append, ih]
    cases hfound : l.find? p with
    | some z => rfl
    | none =>
      have hx : ¬p x = true := fun hx => List.find?_eq_none.1 hfound y seen (hp y x again hx)
      simp [hx]

end KeepsFirst

namespace Collection

/-! ### Names -/

variable {name? : Record → Option String}

/-- A record at the end is dropped when its name was seen. -/
theorem distinctOn_concat_of_seen {r : Record} {n : String} (hr : name? r = some n)
    (l : List Record) : ∀ seen : List String, n ∈ seen ∨ (∃ s ∈ l, name? s = some n) →
      distinctOn name? seen (l ++ [r]) = distinctOn name? seen l := by
  induction l with
  | nil =>
    intro seen hn
    obtain hn | ⟨s, hs, -⟩ := hn
    · simp [distinctOn, hr, hn]
    · cases hs
  | cons s l ih =>
    intro seen hn
    rw [List.cons_append, distinctOn, distinctOn]
    simp only [List.mem_cons, exists_eq_or_imp] at hn
    cases hs : name? s with
    | none =>
      exact congrArg (s :: ·) (ih seen (hn.imp_right fun h => h.resolve_left (by simp [hs])))
    | some n' =>
      rw [hs, Option.some_inj] at hn
      dsimp only
      split
      · rename_i hseen
        -- the name of this record counts as seen already
        refine ih seen (hn.elim .inl fun hn => hn.imp_left ?_)
        rintro rfl
        simpa using hseen
      · refine congrArg (s :: ·) (ih (n' :: seen) ?_)
        rw [List.mem_cons]
        exact hn.elim (fun h => .inl (.inr h)) fun hn => hn.imp_left fun h => .inl h.symm

/-- A record at the end stays when it has no name or a new one. -/
theorem distinctOn_concat_of_new {r : Record} (l : List Record) : ∀ seen : List String,
    (∀ n, name? r = some n → n ∉ seen ∧ ∀ s ∈ l, name? s ≠ some n) →
      distinctOn name? seen (l ++ [r]) = distinctOn name? seen l ++ [r] := by
  induction l with
  | nil =>
    intro seen hnew
    cases hr : name? r with
    | none => simp [distinctOn, hr]
    | some n => simp [distinctOn, hr, (hnew n hr).1]
  | cons s l ih =>
    intro seen hnew
    have hrest : ∀ seen', (∀ n ∈ seen', n ∈ seen ∨ name? s = some n) →
        distinctOn name? seen' (l ++ [r]) = distinctOn name? seen' l ++ [r] := by
      refine fun seen' hseen => ih seen' fun n hr => ?_
      obtain ⟨hn, hl⟩ := hnew n hr
      rw [List.forall_mem_cons] at hl
      exact ⟨fun hmem => (hseen n hmem).elim hn hl.1, hl.2⟩
    rw [List.cons_append, distinctOn, distinctOn]
    cases hs : name? s with
    | none => exact congrArg (s :: ·) (hrest seen fun _ h => .inl h)
    | some n' =>
      dsimp only
      split
      · exact hrest seen fun _ h => .inl h
      · refine congrArg (s :: ·) (hrest (n' :: seen) fun n hn => ?_)
        rcases List.mem_cons.1 hn with rfl | hn
        · exact .inr hs
        · exact .inl hn

/-- **Dropping records by their names**: a record repeats an earlier one that has its name. -/
theorem keepsFirst_distinctOn (l : List Record) :
    KeepsFirst (fun s r => ∃ n, name? s = some n ∧ name? r = some n) l (distinctOn name? [] l) := by
  induction l using List.reverseRecOn with
  | nil => exact .nil
  | append_singleton l r ih =>
    by_cases hseen : ∃ s ∈ l, ∃ n, name? s = some n ∧ name? r = some n
    · obtain ⟨s, hs, n, hname, hr⟩ := hseen
      rw [distinctOn_concat_of_seen hr l [] (.inr ⟨s, hs, hname⟩)]
      exact .drop ih hs ⟨n, hname, hr⟩
    · rw [distinctOn_concat_of_new l [] fun n hr =>
        ⟨List.not_mem_nil, fun s hs hname => hseen ⟨s, hs, n, hname, hr⟩⟩]
      exact .keep ih fun s hs hagain => hseen ⟨s, hs, hagain⟩

/-- **Nothing is left to drop** the second time. -/
theorem distinctOn_distinctOn (l : List Record) :
    distinctOn name? [] (distinctOn name? [] l) = distinctOn name? [] l :=
  (keepsFirst_distinctOn _).unique (.of_pairwise (keepsFirst_distinctOn l).pairwise)

end Collection

end ActiveRow
