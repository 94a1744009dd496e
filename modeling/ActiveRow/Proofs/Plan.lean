import ActiveRow.Proofs.Sending

/-!
# Plans

What an action does over a scripted adapter, as a tree: the statements that it tries to send, one
after the other, each of which may depend on the replies so far. A statement that is asked has to
compile and to be answered, else the fault is how the plan ends.

* `Plan.run_bind`: a plan after another goes on with the replies that are left.
* `Plan.run_fault`: a fault at a statement that is asked is how the run ends.
* `Plan.sent_of_last`: what has been sent by then.
* `Plan.sent_causal`: a statement depends on the replies to those before it, and on no others.
* `Follows.bind` and its like: the actions that follow a plan.
-/

namespace ActiveRow

/-- What an action does over one adapter, with a state of its user at hand. -/
inductive Plan (υ α : Type) where
  | ends (result : Except Fault α)
  /-- Sends a statement if it compiles, and goes on if it is answered. -/
  | asks (compiled : Except Fault Statement) (next : Output → Plan υ α)
  /-- Sends a statement, and goes on whatever the reply is. -/
  | tries (s : Statement) (next : Reply → Plan υ α)
  /-- Changes the state of the user, and goes on by the state that there was. -/
  | turns (change : υ → υ) (next : υ → Plan υ α)

namespace Plan

/-- A statement that a plan came to. -/
inductive Attempt where
  | asked (compiled : Except Fault Statement)
  | tried (s : Statement)

namespace Attempt

/-- The statement that is sent, unless it does not compile. -/
def sent? : Attempt → Option Statement
  | asked (.ok s) | tried s => some s
  | asked (.error _) => none

/-- The fault that an attempt meets, which ends the plan. -/
def fault? : Attempt → Reply → Option Fault
  | asked (.error cause), _ => some cause
  | asked (.ok _), .error cause => some cause
  | asked (.ok _), .ok _ => none
  | tried _, _ => none

end Attempt

variable {υ α β : Type}

/-- What a run of a plan came to. -/
structure Outcome (υ α : Type) where
  attempts : List Attempt
  result : Except Fault α
  /-- The state that the user has at the end. -/
  user : υ

def Outcome.sent (o : Outcome υ α) : List Statement := o.attempts.filterMap Attempt.sent?

/-- The outcome with an attempt in front. -/
def Outcome.after (o : Outcome υ α) (a : Attempt) : Outcome υ α :=
  { o with attempts := a :: o.attempts }

/-- One outcome and, behind what it came to, another. -/
def Outcome.andThen (o : Outcome υ α) (o' : Outcome υ β) : Outcome υ β :=
  { o' with attempts := o.attempts ++ o'.attempts }

/-- The reply to the request at this place; where none is left, the answer has no rows. -/
def replyTo (replies : List Reply) (k : Nat) : Reply := replies[k]?.getD (.ok (.affected 0))

/-- Runs a plan on the replies of its adapter. -/
def run : Plan υ α → List Reply → υ → Outcome υ α
  | ends result, _, u => ⟨[], result, u⟩
  | asks (.error cause) _, _, u => ⟨[.asked (.error cause)], .error cause, u⟩
  | asks (.ok s) next, replies, u =>
    match replyTo replies 0 with
    | .ok out => ((next out).run replies.tail u).after (.asked (.ok s))
    | .error cause => ⟨[.asked (.ok s)], .error cause, u⟩
  | tries s next, replies, u => ((next (replyTo replies 0)).run replies.tail u).after (.tried s)
  | turns change next, replies, u => (next u).run replies (change u)

/-- Goes on with another plan where a plan ends with a result. -/
def bind : Plan υ α → (α → Plan υ β) → Plan υ β
  | ends (.ok x), k => k x
  | ends (.error cause), _ => ends (.error cause)
  | asks compiled next, k => asks compiled fun out => (next out).bind k
  | tries s next, k => tries s fun reply => (next reply).bind k
  | turns change next, k => turns change fun u => (next u).bind k

instance : Monad (Plan υ) where
  pure x := ends (.ok x)
  bind := bind

/-- Asks one statement and reads its answer. -/
def one (compiled : Except Fault Statement) (read : Output → α) : Plan υ α :=
  asks compiled fun out => ends (.ok (read out))

/-- The plan survives no failure of a reply: it tries no statement. -/
def Heeds : Plan υ α → Prop
  | ends _ => True
  | asks _ next => ∀ out, (next out).Heeds
  | tries _ _ => False
  | turns _ next => ∀ u, (next u).Heeds

theorem Heeds.bind {k : α → Plan υ β} (hk : ∀ x, (k x).Heeds) :
    ∀ {p : Plan υ α}, p.Heeds → (p >>= k).Heeds
  | ends (.ok x), _ => hk x
  | ends (.error _), _ => trivial
  | asks _ _, h => fun out => Heeds.bind hk (h out)
  | turns _ _, h => fun u => Heeds.bind hk (h u)

/-! ### Runs -/

theorem Outcome.sent_andThen (o : Outcome υ α) (o' : Outcome υ β) :
    (o.andThen o').sent = o.sent ++ o'.sent :=
  List.filterMap_append

@[simp] theorem Outcome.sent_after (o : Outcome υ α) (a : Attempt) :
    (o.after a).sent = a.sent?.toList ++ o.sent := by
  rw [sent, after, List.filterMap_cons]
  cases a.sent? <;> rfl

/-- An outcome has an attempt in front, and then its own. -/
theorem Outcome.getElem?_after {o : Outcome υ α} {a b : Attempt} {k : Nat}
    (h : (o.after b).attempts[k]? = some a) :
    k = 0 ∧ b = a ∨ ∃ k', k = k' + 1 ∧ o.attempts[k']? = some a := by
  cases k with
  | zero => exact .inl ⟨rfl, Option.some.inj h⟩
  | succ k => exact .inr ⟨k, rfl, h⟩

/-- **One plan after the other.** The second runs on the replies that are left. -/
theorem run_bind (p : Plan υ α) (k : α → Plan υ β) : ∀ replies u,
    (p >>= k).run replies u =
      let o := p.run replies u
      match o.result with
      | .ok x => o.andThen ((k x).run (replies.drop o.sent.length) o.user)
      | .error cause => ⟨o.attempts, .error cause, o.user⟩ := by
  show ∀ replies u, (p.bind k).run replies u = _
  induction p with
  | ends result =>
    intro replies u
    cases result <;> rfl
  | asks compiled next ih =>
    intro replies u
    cases compiled with
    | error cause => rfl
    | ok s =>
      simp only [bind, run]
      cases replyTo replies 0 with
      | error cause => rfl
      | ok out =>
        simp only [ih, Outcome.sent_after]
        cases h : ((next out).run replies.tail u).result <;>
          simp [Outcome.after, Outcome.andThen, h, Attempt.sent?]
  | tries s next ih =>
    intro replies u
    simp only [bind, run, ih, Outcome.sent_after]
    cases h : ((next (replyTo replies 0)).run replies.tail u).result <;>
      simp [Outcome.after, Outcome.andThen, h, Attempt.sent?]
  | turns change next ih =>
    intro replies u
    exact ih u replies (change u)

/-- What a run of two plans with a result went through. -/
theorem run_bind_eq_ok {p : Plan υ α} {k : α → Plan υ β} {replies : List Reply} {u : υ} {y : β}
    (h : ((p >>= k).run replies u).result = .ok y) :
    let o := p.run replies u
    ∃ x, o.result = .ok x ∧ ((k x).run (replies.drop o.sent.length) o.user).result = .ok y ∧
      (p >>= k).run replies u = o.andThen ((k x).run (replies.drop o.sent.length) o.user) := by
  rw [run_bind] at h ⊢
  generalize p.run replies u = o at h ⊢
  cases hr : o.result with
  | ok x => exact ⟨x, hr, by simpa [hr, Outcome.andThen] using h, by simp [hr]⟩
  | error cause => simp [hr] at h

/-- A statement that gave a result was sent and answered. -/
theorem run_one_eq_ok {compiled : Except Fault Statement} {read : Output → α}
    {replies : List Reply} {u : υ} {x : α}
    (h : ((one compiled read).run replies u).result = .ok x) :
    ∃ s out, ((one compiled read).run replies u).sent = [s] ∧ replyTo replies 0 = .ok out ∧
      x = read out := by
  cases compiled with
  | error cause => cases h
  | ok s =>
    simp only [one, run] at h ⊢
    cases hreply : replyTo replies 0 with
    | error cause => simp [hreply] at h
    | ok out =>
      rw [hreply] at h
      exact ⟨s, out, rfl, rfl, (Except.ok.inj h).symm⟩

theorem replyTo_succ (replies : List Reply) (k : Nat) :
    replyTo replies (k + 1) = replyTo replies.tail k := by
  rw [replyTo, replyTo, List.getElem?_tail]

theorem eq_of_getElem?_singleton {a b : Attempt} {k : Nat} (h : [b][k]? = some a) :
    k = 0 ∧ b = a := by
  cases k with
  | zero => exact ⟨rfl, Option.some.inj h⟩
  | succ k => cases h

/-- **A fault at a statement that is asked** is how the run ends, and the run comes to no further
statement. -/
theorem run_fault {a : Attempt} {cause : Fault} (p : Plan υ α) : ∀ replies u k,
    (p.run replies u).attempts[k]? = some a → a.fault? (replyTo replies k) = some cause →
      (p.run replies u).result = .error cause ∧ (p.run replies u).attempts.length = k + 1 := by
  induction p with
  | ends result => intro replies u k h; cases h
  | asks compiled next ih =>
    intro replies u k h hfault
    cases compiled with
    | error cause' =>
      obtain ⟨rfl, rfl⟩ := eq_of_getElem?_singleton h
      obtain rfl := Option.some.inj hfault
      exact ⟨rfl, rfl⟩
    | ok s =>
      simp only [run] at h ⊢
      cases hreply : replyTo replies 0 with
      | error cause' =>
        rw [hreply] at h
        obtain ⟨rfl, rfl⟩ := eq_of_getElem?_singleton h
        rw [hreply] at hfault
        obtain rfl := Option.some.inj hfault
        exact ⟨rfl, rfl⟩
      | ok out =>
        rw [hreply] at h
        obtain ⟨rfl, rfl⟩ | ⟨k, rfl, h⟩ := Outcome.getElem?_after h
        · rw [hreply] at hfault
          cases hfault
        · rw [replyTo_succ] at hfault
          obtain ⟨hresult, hlength⟩ := ih out replies.tail u k h hfault
          exact ⟨hresult, congrArg (· + 1) hlength⟩
  | tries s next ih =>
    intro replies u k h hfault
    obtain ⟨rfl, rfl⟩ | ⟨k, rfl, h⟩ := Outcome.getElem?_after h
    · cases hfault
    · rw [replyTo_succ] at hfault
      obtain ⟨hresult, hlength⟩ := ih _ replies.tail u k h hfault
      exact ⟨hresult, congrArg (· + 1) hlength⟩
  | turns change next ih =>
    intro replies u k h hfault
    exact ih u replies (change u) k h hfault

/-- Everything before the last statement that a run comes to is sent. -/
theorem sent_of_last {a : Attempt} (p : Plan υ α) {replies : List Reply} {u : υ} {k : Nat}
    (h : (p.run replies u).attempts[k]? = some a)
    (hlast : (p.run replies u).attempts.length = k + 1) :
    ∃ before, before.length = k ∧ (p.run replies u).sent = before ++ a.sent?.toList := by
  generalize hl : (p.run replies u).attempts = attempts at h hlast
  have hsplit : attempts = attempts.take k ++ [a] := by
    obtain ⟨hk, ha⟩ := List.getElem?_eq_some_iff.1 h
    rw [← ha, List.take_append_getElem, List.take_of_length_le (by omega)]
  have hsent : ∀ b ∈ attempts.take k, b.sent?.isSome := by
    intro b hb
    obtain ⟨i, hi, hb⟩ := List.mem_take_iff_getElem.1 hb
    cases b with
    | tried s => rfl
    | asked compiled =>
      cases compiled with
      | ok s => rfl
      | error cause =>
        -- it would be the last one
        have hi' : (p.run replies u).attempts[i]? = some (.asked (.error cause)) := by
          rw [hl, ← hb]
          exact List.getElem?_eq_getElem (by omega)
        have hend := (run_fault p replies u i hi' rfl).2
        rw [hl] at hend
        omega
  refine ⟨(attempts.take k).filterMap Attempt.sent?, ?_, ?_⟩
  · rw [List.length_filterMap_eq_countP, List.countP_eq_length.2 hsent,
      List.length_take_of_le (by omega)]
  · have hone : [a].filterMap Attempt.sent? = a.sent?.toList := by
      cases ha : a.sent? <;> simp [ha]
    calc (p.run replies u).sent = attempts.filterMap Attempt.sent? := by rw [Outcome.sent, hl]
      _ = (attempts.take k ++ [a]).filterMap Attempt.sent? := by rw [← hsplit]
      _ = _ := by rw [List.filterMap_append, hone]

/-- A plan that heeds failures asks every statement that it sends. -/
theorem Heeds.asked {p : Plan υ α} (h : p.Heeds) : ∀ replies u,
    ∀ a ∈ (p.run replies u).attempts, ∃ compiled, a = .asked compiled := by
  induction p with
  | ends result => intro _ _ a ha; cases ha
  | asks compiled next ih =>
    intro replies u a ha
    cases compiled with
    | error cause => exact ⟨_, List.mem_singleton.1 ha⟩
    | ok s =>
      simp only [run] at ha
      cases hreply : replyTo replies 0 with
      | error cause =>
        rw [hreply] at ha
        exact ⟨_, List.mem_singleton.1 ha⟩
      | ok out =>
        rw [hreply] at ha
        obtain rfl | ha := List.mem_cons.1 ha
        · exact ⟨_, rfl⟩
        · exact ih out (h out) _ _ a ha
  | tries s next ih => exact h.elim
  | turns change next ih => exact fun replies u => ih u (h u) replies (change u)

theorem replyTo_congr {replies replies' : List Reply} {k : Nat}
    (h : replies.take (k + 1) = replies'.take (k + 1)) :
    replyTo replies 0 = replyTo replies' 0 ∧ replies.tail.take k = replies'.tail.take k := by
  cases replies <;> cases replies' <;> simp_all [replyTo]

/-- **What is sent depends on the past.** Runs on replies of which the first `k` are the same agree
in the first `k + 1` statements. -/
theorem sent_causal (p : Plan υ α) : ∀ (replies replies' : List Reply) (u : υ) (k : Nat),
    replies.take k = replies'.take k →
      (p.run replies u).sent.take (k + 1) = (p.run replies' u).sent.take (k + 1) := by
  induction p with
  | ends result => intro _ _ _ _ _; rfl
  | asks compiled next ih =>
    intro replies replies' u k h
    cases compiled with
    | error cause => rfl
    | ok s =>
      have hfirst : ∀ replies, ∃ rest, ((asks (.ok s) next).run replies u).sent = s :: rest := by
        intro replies
        simp only [run]
        cases replyTo replies 0 with
        | error cause => exact ⟨[], rfl⟩
        | ok out => exact ⟨_, Outcome.sent_after _ _⟩
      cases k with
      | zero =>
        obtain ⟨rest, hrest⟩ := hfirst replies
        obtain ⟨rest', hrest'⟩ := hfirst replies'
        rw [hrest, hrest']
        rfl
      | succ k =>
        obtain ⟨hreply, htail⟩ := replyTo_congr h
        simp only [run, ← hreply]
        cases replyTo replies 0 with
        | error cause => rfl
        | ok out =>
          rw [Outcome.sent_after, Outcome.sent_after]
          exact congrArg (s :: ·) (ih out _ _ u k htail)
  | tries s next ih =>
    intro replies replies' u k h
    simp only [run, Outcome.sent_after]
    cases k with
    | zero => rfl
    | succ k =>
      obtain ⟨hreply, htail⟩ := replyTo_congr h
      rw [← hreply]
      exact congrArg (s :: ·) (ih _ _ _ u k htail)
  | turns change next ih =>
    intro replies replies' u k h
    exact ih u replies replies' (change u) k h

end Plan

namespace Script

variable {υ α β : Type} {driver name : String} {d : Dialect}
variable {scope : Except Fault (Option String)}

/-- A statement as the adapter receives it. -/
def request (name : String) (s : Statement) : Sent := ⟨name, s.sql, s.bindings⟩

/-- What an action came to is the outcome of a plan. Events are not part of it. -/
structure Matches (name : String) (st : Script υ) (o : Plan.Outcome υ α)
    (ended : Except Fault α × Script υ) : Prop where
  result : ended.1 = o.result
  log : ended.2.log = st.log ++ o.sent.map (request name)
  pending : ended.2.pending name = (st.pending name).drop o.sent.length
  user : ended.2.user = o.user

/-- The action does what the plan says, whatever the replies are. If it is to be `strict`, the plan
heeds failures. -/
structure Follows (name : String) (strict : Prop) (p : Plan υ α) (a : Action (Script υ) α) :
    Prop where
  runs : ∀ st : Script υ, Matches name st (p.run (st.pending name) st.user) (a.from_ st)
  heeds : strict → p.Heeds

theorem reply_eq (st : Script υ) : st.reply name = Plan.replyTo (st.pending name) 0 := by
  rw [reply, Plan.replyTo, List.head?_eq_getElem?]

theorem pending_receive (st : Script υ) (s : Statement) :
    (st.receive (request name s)).pending name = (st.pending name).tail := by
  show ((st.replies.insert name (st.pending name).tail).get? name).getD [] = _
  rw [Keyed.get?_insert, if_pos rfl, Option.getD_some]

namespace Follows

variable {strict : Prop}

theorem ofExcept (result : Except Fault α) :
    Follows (υ := υ) name strict (.ends result) (.ofExcept result) where
  runs _ := ⟨rfl, (List.append_nil _).symm, rfl, rfl⟩
  heeds _ := trivial

theorem pure (x : α) : Follows (υ := υ) name strict (Pure.pure x) (Pure.pure x) :=
  ofExcept (.ok x)

theorem throw (cause : Fault) :
    Follows (υ := υ) (α := α) name strict (.ends (.error cause)) (MonadExcept.throw cause) :=
  ofExcept (.error cause)

/-- **One action after the other** follows one plan after the other. -/
theorem bind {p : Plan υ α} {a : Action (Script υ) α} {k : α → Plan υ β}
    {f : α → Action (Script υ) β} (h : Follows name strict p a)
    (hk : ∀ x, Follows name strict (k x) (f x)) : Follows name strict (p >>= k) (a >>= f) := by
  refine ⟨fun st => ?_, fun hs => (h.heeds hs).bind fun x => (hk x).heeds hs⟩
  have hfirst := h.runs st
  rw [Plan.run_bind, Action.from_bind]
  generalize p.run (st.pending name) st.user = o at hfirst ⊢
  generalize a.from_ st = ended at hfirst ⊢
  obtain ⟨attempts, result, u⟩ := o
  obtain ⟨result', st'⟩ := ended
  obtain ⟨hresult, hlog, hpending, huser⟩ := hfirst
  simp only at hresult hlog hpending huser
  subst hresult
  cases result' with
  | error cause => exact ⟨rfl, hlog, hpending, huser⟩
  | ok x =>
    -- the second action finds the replies and the user as the first has left them
    have hsecond := (hk x).runs st'
    rw [hpending, huser] at hsecond
    obtain ⟨hresult', hlog', hpending', huser'⟩ := hsecond
    refine ⟨hresult', ?_, ?_, huser'⟩
    · rw [hlog', hlog, Plan.Outcome.sent_andThen, List.map_append, List.append_assoc]
    · rw [hpending', hpending, Plan.Outcome.sent_andThen, List.length_append, List.drop_drop]

/-- Reporting is no part of a plan. -/
theorem report (e : Event) {p : Plan υ α} {a : Action (Script υ) α}
    (h : Follows name strict p a) :
    Follows name strict p ((connection driver d name scope).report e >>= fun _ => a) := by
  have hreport : Follows (υ := υ) name strict (Pure.pure ())
      ((connection driver d name scope).report e) :=
    ⟨fun _ => ⟨rfl, (List.append_nil _).symm, rfl, rfl⟩, fun _ => trivial⟩
  exact hreport.bind fun _ => h

/-- A request whose answer is read follows the plan that asks for it. -/
theorem dispatch (kind : StatementKind) {s t : Statement} {read : Output → α}
    {send : Action (Script υ) α}
    (hsend : ∀ st, send.from_ st = ((st.reply name).map read, st.receive (request name t))) :
    Follows name strict (.one (.ok t) read)
      ((connection driver d name scope).dispatch kind s send) := by
  refine ⟨fun st => ?_, fun _ _ => trivial⟩
  -- an event changes neither replies nor log
  let st' : Script υ := note (.dispatching kind s.sql) st
  have hreply : st'.reply name = Plan.replyTo (st.pending name) 0 := reply_eq st
  have hpending : (st'.receive (request name t)).pending name = (st.pending name).drop 1 :=
    (pending_receive st' t).trans List.drop_one.symm
  have hobserve :
      (connection driver d name scope).observe (.dispatching kind s.sql) st = st' := rfl
  rw [Connection.from_dispatch, hsend, hobserve, hreply]
  simp only [Plan.one, Plan.run]
  cases Plan.replyTo (st.pending name) 0 with
  | ok out => exact ⟨rfl, rfl, hpending, rfl⟩
  | error cause => exact ⟨rfl, rfl, hpending, rfl⟩

/-- A statement that the adapter has no form of is reported, and not asked. -/
theorem dispatch_throw (kind : StatementKind) (s : Statement) (read : Output → α)
    (cause : Fault) :
    Follows (υ := υ) name strict (.one (.error cause) read)
      ((connection driver d name scope).dispatch kind s (MonadExcept.throw cause)) where
  runs _ := ⟨rfl, (List.append_nil _).symm, rfl, rfl⟩
  heeds _ _ := trivial

/-- A statement is compiled first, and asked if that succeeds. -/
theorem compiled {r : Except Fault Statement} {read : Output → α}
    {send : Statement → Action (Script υ) α}
    (h : ∀ s, r = .ok s → Follows name strict (.one (.ok s) read) (send s)) :
    Follows name strict (.one r read) (.ofExcept r >>= send) := by
  cases r with
  | error cause => exact ⟨fun _ => ⟨rfl, (List.append_nil _).symm, rfl, rfl⟩, fun _ _ => trivial⟩
  | ok s => exact h s rfl

/-- What is read from an answer may be worked on further. -/
theorem map {r : Except Fault Statement} {read : Output → α} {read' : Output → β}
    {a : Action (Script υ) α} {f : α → β} (h : Follows name strict (.one r read) a)
    (hread : ∀ out, read' out = f (read out)) :
    Follows name strict (.one r read') (do Pure.pure (f (← a))) := by
  obtain rfl : read' = f ∘ read := funext hread
  exact h.bind fun x => pure (f x)

end Follows

end Script

end ActiveRow
