import ActiveRow.Proofs.Source.Reader

/-!
# Where readers get to

What holds of the result of a reader and of the place where it leaves off, whatever is there, as
long as the reader does not refuse it.

* `Leads.bind`: a reader behind another one starts where that leaves off.
* `Leads.repeating`: what every step keeps, the repetition keeps.
* `Leads.enter`: a group is gone into, and where it ends is known.
-/

namespace ActiveRow.Source

theorem Reader.exists_of_bind_eq_ok {ε α β : Type} {x : Except ε α} {f : α → Except ε β} {b : β}
    (h : x >>= f = .ok b) : ∃ a, x = .ok a ∧ f a = .ok b := by
  cases x with
  | error e => cases h
  | ok a => exact ⟨a, rfl, h⟩

theorem Place.behind_group {p inside behind : Place} {b : Bracket}
    (h : p.group? b = some (inside, behind)) :
    ∃ ts, p.lexemes = .opens b :: ts ∧ behind.lexemes = (groupEnd 0 ts).2 := by
  rw [group?] at h
  split at h
  · next b' ts hts =>
    split at h
    · next hb =>
      cases hb
      cases h
      exact ⟨ts, hts, rfl⟩
    · cases h
  · cases h

/-- What holds of the result and of where it leaves off, when a reader starts where `P` holds and
does not refuse what is there. -/
def Leads {ε α : Type} (P : Place → Prop) (r : StateT Place (Except ε) α) (Q : α → Place → Prop) :
    Prop :=
  ∀ ⦃p a p'⦄, P p → r.run p = .ok (a, p') → Q a p'

namespace Leads

variable {ε α β : Type} {P : Place → Prop} {Q : α → Place → Prop} {R : β → Place → Prop}
  {r r' : StateT Place (Except ε) α}

theorem pure (a : α) (h : ∀ p, P p → Q a p) : Leads P (pure a : StateT Place (Except ε) α) Q := by
  intro p b p' hp hrun
  cases hrun
  exact h p hp

theorem throw (e : ε) : Leads P (throw e : StateT Place (Except ε) α) Q := by
  intro p b p' _ hrun
  cases hrun

theorem bind {f : α → StateT Place (Except ε) β} (h : Leads P r Q) (hf : ∀ a, Leads (Q a) (f a) R) :
    Leads P (r >>= f) R := by
  intro p b p'' hp hrun
  obtain ⟨⟨a, p'⟩, hr, hrun⟩ := Reader.exists_of_bind_eq_ok hrun
  exact hf a (h hp hr) hrun

theorem imp_left {P' : Place → Prop} (hP : ∀ p, P' p → P p) (h : Leads P r Q) : Leads P' r Q :=
  fun _ _ _ hp hrun => h (hP _ hp) hrun

theorem imp_right {Q' : α → Place → Prop} (hQ : ∀ a p, Q a p → Q' a p) (h : Leads P r Q) :
    Leads P r Q' :=
  fun _ _ _ hp hrun => hQ _ _ (h hp hrun)

/-- What does not depend on the place stays as it is. -/
theorem const {A : Prop} (r : StateT Place (Except ε) α) : Leads (fun _ => A) r fun _ _ => A :=
  fun _ _ _ h _ => h

theorem discard {I : Place → Prop} (h : Leads P r fun _ => I) :
    Leads P (discard r : StateT Place (Except ε) PUnit) fun _ => I := by
  have hbind : (Functor.discard r : StateT Place (Except ε) PUnit) =
      r >>= fun _ => Pure.pure () := rfl
  rw [hbind]
  exact h.bind fun _ => Leads.pure _ fun _ => id

/-- Nothing is read behind what is refused. -/
theorem bind_of_false {f : α → StateT Place (Except ε) β} (h : Leads P r fun _ _ => False) :
    Leads P (r >>= f) R :=
  h.bind fun _ _ _ _ hfalse _ => hfalse.elim

/-- What does not depend on the place is known from the start. -/
theorem given {A : Prop} (h : A → Leads P r Q) : Leads (fun p => P p ∧ A) r Q :=
  fun _ _ _ hp hrun => h hp.2 hp.1 hrun

theorem ite {c : Prop} [Decidable c] (h : c → Leads P r Q) (h' : ¬c → Leads P r' Q) :
    Leads P (if c then r else r') Q := by
  split
  · next hc => exact h hc
  · next hc => exact h' hc

/-- What every step keeps, the repetition keeps. -/
theorem repeatFrom {I : α → Place → Prop} {step : α → StateT Place (Except ε) (ForInStep α)}
    (h : ∀ s, Leads (I s) (step s) fun next => I next.value) (n : Nat) (s : α) :
    Leads (I s) (Reader.repeatFrom step n s) I := by
  induction n generalizing s with
  | zero => exact Leads.pure s fun _ => id
  | succ n ih =>
    refine (h s).bind fun next => ?_
    cases next with
    | done s => exact Leads.pure s fun _ => id
    | yield s => exact ih s

theorem repeating {I : α → Place → Prop} {step : α → StateT Place (Except ε) (ForInStep α)}
    (h : ∀ s, Leads (I s) (step s) fun next => I next.value) (s : α) :
    Leads (I s) (Reader.repeating step s) I :=
  fun p _ _ hp hrun => repeatFrom h (p.lexemes.length + 1) s hp hrun

theorem left : Leads P Reader.left fun ts p => P p ∧ p.lexemes = ts := by
  intro p a p' hp hrun
  cases hrun
  exact ⟨hp, rfl⟩

theorem next {t : Lexeme} {ts : List Lexeme} :
    Leads (fun p => P p ∧ p.lexemes = t :: ts) Reader.next fun _ p' =>
      ∃ p, P p ∧ p.lexemes = t :: p'.lexemes := by
  intro p _ p' hp hrun
  cases hrun
  refine ⟨p, hp.1, ?_⟩
  simp [Place.advance, hp.2]

theorem fail (what : String) : Leads P (Reader.fail what : Reader α) Q := by
  intro p b p' _ hrun
  cases hrun

theorem anyName : Leads P Reader.anyName fun w p' =>
    ∃ p, P p ∧ p.lexemes = .name w :: p'.lexemes := by
  refine left.bind fun ts => ?_
  split
  · exact next.bind fun _ => pure _ fun _ => id
  · exact fail _

theorem text : Leads P Reader.text fun value p' =>
    ∃ p written, P p ∧ p.lexemes = .text value written :: p'.lexemes := by
  refine left.bind fun ts => ?_
  split
  · exact next.bind fun _ => pure _ fun _ ⟨p, hp, hp'⟩ => ⟨p, _, hp, hp'⟩
  · exact fail _

theorem sign? (s : String) : Leads P (Reader.sign? s) fun found p' =>
    found = true ∧ (∃ p, P p ∧ signs? s.toList p.lexemes = some p'.lexemes) ∨
      found = false ∧ P p' := by
  refine left.bind fun ts => ?_
  split
  · next rest hrest =>
    intro p _ p' hp hrun
    cases hrun
    exact .inl ⟨rfl, p, hp.1, hp.2 ▸ hrest⟩
  · exact pure _ fun p hp => .inr ⟨rfl, hp.1⟩

/-- What follows starts behind the sign or, if that is not there, from where it was looked for. -/
theorem sign?_bind {s : String} {f : Bool → Reader α}
    (hsign : Leads (fun p' => ∃ p, P p ∧ signs? s.toList p.lexemes = some p'.lexemes) (f true) Q)
    (hnone : Leads P (f false) Q) : Leads P (Reader.sign? s >>= f) Q := by
  refine (sign? s).bind fun found => ?_
  cases found with
  | true => exact hsign.imp_left fun _ hp => by simpa using hp
  | false => exact hnone.imp_left fun _ hp => by simpa using hp

theorem sign (s : String) : Leads P (Reader.sign s) fun _ p' =>
    ∃ p, P p ∧ signs? s.toList p.lexemes = some p'.lexemes := by
  refine left.bind fun ts => ?_
  split
  · next rest hrest =>
    intro p _ p' hp hrun
    cases hrun
    exact ⟨p, hp.1, hp.2 ▸ hrest⟩
  · exact throw _

theorem enter (b : Bracket) : Leads P (Reader.enter b) fun behind _ =>
    ∃ p ts, P p ∧ p.lexemes = .opens b :: ts ∧ behind.lexemes = (groupEnd 0 ts).2 := by
  intro p behind p' hp hrun
  cases hgroup : p.group? b with
  | none =>
    simp only [Reader.enter, StateT.run_bind, StateT.run_get, pure_bind, hgroup] at hrun
    cases hrun
  | some places =>
    obtain ⟨ts, hts, hbehind⟩ := Place.behind_group hgroup
    simp only [Reader.enter, StateT.run_bind, StateT.run_get, pure_bind, hgroup] at hrun
    cases hrun
    exact ⟨p, ts, hp, hts, hbehind⟩

end Leads

end ActiveRow.Source
