import ActiveRow.Proofs.Action
import ActiveRow.Proofs.Compilation
import ActiveRow.Query.Write
import ActiveRow.Script

/-!
# What actions send

An action over scripts only adds to the log. `Sends` says what it adds, and how it ends: a
condition on the outcome and on the requests that were added.

* `Sends.bind`: what two actions add, one after the other.
* `Sends.bind_each`: so requests that are told one by one come in the order of the actions.
* `sends_get` and its like: an operation on a query sends the one statement the query is compiled
  to, or nothing when it is not compiled.
-/

namespace ActiveRow.Script

variable {υ α β : Type}

/-- The action adds requests to the log, and these and its outcome are as `Φ` says. -/
def Sends (Φ : Except Fault α → List Sent → Prop) (a : Action (Script υ) α) : Prop :=
  ∀ st, ∃ more, (a.from_ st).2.log = st.log ++ more ∧ Φ (a.from_ st).1 more

/-- The action adds only requests that satisfy `P`. -/
abbrev SendsOnly (P : Sent → Prop) (a : Action (Script υ) α) : Prop :=
  Sends (fun _ more => ∀ e ∈ more, P e) a

/-- Requests one of which is as each of `Ps` says, in their order; the others satisfy `Q`. -/
inductive Each (Q : Sent → Prop) : List (Sent → Prop) → List Sent → Prop where
  | nil : Each Q [] []
  | own {P : Sent → Prop} {Ps : List (Sent → Prop)} {e : Sent} {l : List Sent} (he : P e)
      (h : Each Q Ps l) : Each Q (P :: Ps) (e :: l)
  | other {Ps : List (Sent → Prop)} {e : Sent} {l : List Sent} (he : Q e) (h : Each Q Ps l) :
      Each Q Ps (e :: l)

/-- The action adds one request as each of `Ps` says, in their order, and others that satisfy `Q`.
When it gives no result, it may end behind any of them. -/
abbrev SendsEach (Ps : List (Sent → Prop)) (Q : Sent → Prop) (a : Action (Script υ) α) : Prop :=
  Sends (fun r more => ∃ done, done <+: Ps ∧ Each Q done more ∧ ∀ x, r = .ok x → done = Ps) a

/-- The action adds only requests that satisfy `P` or `Q`, and when it gives a result, at least one
that satisfies `P`. -/
abbrev SendsSome (P Q : Sent → Prop) (a : Action (Script υ) α) : Prop :=
  Sends (fun r more => (∀ e ∈ more, P e ∨ Q e) ∧ ∀ x, r = .ok x → ∃ e ∈ more, P e) a

namespace Each

variable {P Q : Sent → Prop} {Ps Rs : List (Sent → Prop)} {l m : List Sent}

theorem of_others (h : ∀ e ∈ l, Q e) : Each Q [] l := by
  induction l with
  | nil => exact .nil
  | cons e l ih =>
    exact .other (h e List.mem_cons_self) (ih fun e he => h e (List.mem_cons_of_mem _ he))

theorem append (h : Each Q Ps l) (h' : Each Q Rs m) : Each Q (Ps ++ Rs) (l ++ m) := by
  induction h with
  | nil => exact h'
  | own he _ ih => exact .own he ih
  | other he _ ih => exact .other he ih

/-- Requests that are each of the action's own or another's, all of its own counted. -/
theorem exists_replicate (h : ∀ e ∈ l, P e ∨ Q e) :
    ∃ n, Each Q (List.replicate n P) l ∧ ((∃ e ∈ l, P e) → n ≠ 0) := by
  induction l with
  | nil => exact ⟨0, .nil, by simp⟩
  | cons e l ih =>
    obtain ⟨n, hl, hn⟩ := ih fun e he => h e (List.mem_cons_of_mem _ he)
    -- a request that is as both say is counted as the action's own
    by_cases he : P e
    · exact ⟨n + 1, .own he hl, fun _ => n.succ_ne_zero⟩
    · refine ⟨n, .other ((h e List.mem_cons_self).resolve_left he) hl, fun hP => hn ?_⟩
      simpa [he] using hP

theorem mem_cases (h : Each Q Ps l) : ∀ e ∈ l, (∃ P ∈ Ps, P e) ∨ Q e := by
  induction h with
  | nil => simp
  | own he _ ih =>
    refine List.forall_mem_cons.2 ⟨.inl ⟨_, List.mem_cons_self, he⟩, fun e hin => ?_⟩
    exact (ih e hin).imp_left fun ⟨P, hP, hPe⟩ => ⟨P, List.mem_cons_of_mem _ hP, hPe⟩
  | other he _ ih => exact List.forall_mem_cons.2 ⟨.inr he, ih⟩

theorem exists_mem (h : Each Q Ps l) : ∀ P ∈ Ps, ∃ e ∈ l, P e := by
  induction h with
  | nil => simp
  | own he _ ih =>
    refine List.forall_mem_cons.2 ⟨⟨_, List.mem_cons_self, he⟩, fun P hP => ?_⟩
    exact (ih P hP).imp fun e he => ⟨List.mem_cons_of_mem _ he.1, he.2⟩
  | other _ _ ih =>
    exact fun P hP => (ih P hP).imp fun e he => ⟨List.mem_cons_of_mem _ he.1, he.2⟩

end Each

namespace Sends

variable {Φ Ψ : Except Fault α → List Sent → Prop} {P Q : Sent → Prop} {a : Action (Script υ) α}

theorem mono (h : Sends Φ a) (himp : ∀ r more, Φ r more → Ψ r more) : Sends Ψ a := fun st =>
  let ⟨more, hl, hr⟩ := h st
  ⟨more, hl, himp _ _ hr⟩

theorem only (h : SendsSome P Q a) : SendsOnly (fun e => P e ∨ Q e) a := h.mono fun _ _ h => h.1

theorem weaken {R : Sent → Prop} (h : SendsOnly P a) (hPR : ∀ e, P e → R e) : SendsOnly R a :=
  h.mono fun _ _ h e he => hPR e (h e he)

theorem pure (x : α) : SendsOnly P (pure x : Action (Script υ) α) := fun st =>
  ⟨[], by simp, by simp⟩

theorem throw {Ps : List (Sent → Prop)} (cause : Fault) :
    SendsEach Ps Q (throw cause : Action (Script υ) α) := fun st =>
  ⟨[], by simp, [], List.nil_prefix, .nil, by simp⟩

theorem each (h : SendsOnly Q a) : SendsEach [] Q a := h.mono fun _ _ h =>
  ⟨[], List.prefix_rfl, .of_others h, fun _ _ => rfl⟩

theorem some (h : SendsEach [P] Q a) : SendsSome P Q a := h.mono fun r more h => by
  obtain ⟨done, hdone, heach, hall⟩ := h
  refine ⟨fun e he => (heach.mem_cases e he).imp_left ?_, fun x hx => ?_⟩
  · rintro ⟨P', hP', he'⟩
    obtain rfl := List.mem_singleton.1 (hdone.subset hP')
    exact he'
  · obtain rfl := hall x hx
    exact heach.exists_mem P List.mem_cons_self

theorem ofExcept (r : Except Fault α) : SendsOnly P (.ofExcept r : Action (Script υ) α) := fun st =>
  ⟨[], by simp, by simp⟩

/-- **One action after the other.** The second adds behind what the first has added. -/
theorem bind {Ω : α → Except Fault β → List Sent → Prop} {Θ : Except Fault β → List Sent → Prop}
    {k : α → Action (Script υ) β} (ha : Sends Φ a) (hk : ∀ x, Sends (Ω x) (k x))
    (herror : ∀ cause l, Φ (.error cause) l → Θ (.error cause) l)
    (hok : ∀ x l r m, Φ (.ok x) l → Ω x r m → Θ r (l ++ m)) : Sends Θ (a >>= k) := by
  intro st
  obtain ⟨l, hl, hr⟩ := ha st
  rw [Action.from_bind]
  rcases h : a.from_ st with ⟨r, st'⟩
  rw [h] at hl hr
  cases r with
  | error cause => exact ⟨l, hl, herror cause l hr⟩
  | ok x =>
    obtain ⟨m, hm, hs⟩ := hk x st'
    exact ⟨l ++ m, by rw [hm, hl, List.append_assoc], hok x l _ m hr hs⟩

theorem bind_only {k : α → Action (Script υ) β} (ha : SendsOnly P a) (hk : ∀ x, SendsOnly P (k x)) :
    SendsOnly P (a >>= k) :=
  ha.bind hk (fun _ _ h => h) fun _ _ _ _ h h' e he => (List.mem_append.1 he).elim (h e) (h' e)

/-- **Requests that are told one by one** come in the order of the actions. -/
theorem bind_each {Ps Rs : List (Sent → Prop)} {k : α → Action (Script υ) β}
    (ha : SendsEach Ps Q a) (hk : ∀ x, SendsEach Rs Q (k x)) :
    SendsEach (Ps ++ Rs) Q (a >>= k) := by
  refine ha.bind hk (fun cause l h => ?_) fun x l r m h h' => ?_
  · -- a fault of the first action leaves a part of its own requests
    obtain ⟨done, hdone, heach, -⟩ := h
    exact ⟨done, hdone.trans (List.prefix_append Ps Rs), heach, by simp⟩
  · obtain ⟨done, -, heach, hall⟩ := h
    obtain ⟨done', hdone', heach', hall'⟩ := h'
    obtain rfl := hall x rfl
    exact ⟨done ++ done', (List.prefix_append_right_inj done).2 hdone', heach.append heach',
      fun y hy => by rw [hall' y hy]⟩

/-- The first action sends all that is told. -/
theorem each_then {Ps : List (Sent → Prop)} {k : α → Action (Script υ) β} (ha : SendsEach Ps Q a)
    (hk : ∀ x, SendsOnly Q (k x)) : SendsEach Ps Q (a >>= k) := by
  have h := ha.bind_each fun x => (hk x).each
  rwa [List.append_nil] at h

/-- The first action sends what has to be sent. -/
theorem bind_some {k : α → Action (Script υ) β} (ha : SendsSome P Q a)
    (hk : ∀ x, SendsOnly (fun e => P e ∨ Q e) (k x)) : SendsSome P Q (a >>= k) :=
  ha.bind hk (fun _ _ h => ⟨h.1, by simp⟩) fun x _ _ _ h h' =>
    ⟨fun e he => (List.mem_append.1 he).elim (h.1 e) (h' e),
      fun _ _ => (h.2 x rfl).imp fun _ he => ⟨List.mem_append_left _ he.1, he.2⟩⟩

end Sends

/-! ### Statements over a scripted connection -/

section

variable {driver name : String} {dialect : Dialect} {scope : Except Fault (Option String)}
variable {P Q : Sent → Prop}

theorem sends_report (e : Event) :
    SendsOnly P ((connection driver dialect name scope : Connection (Script υ)).report e) := by
  intro st
  exact ⟨[], by simp [Connection.report, connection, note], by simp⟩

theorem from_rows (s : Statement) (st : Script υ) :
    ((adapter driver dialect name).rows s).from_ st =
      ((st.reply name).map Output.rows, st.receive ⟨name, s.sql, s.bindings⟩) := by
  rw [Adapter.from_rows]
  rfl

theorem from_change (s : Statement) (st : Script υ) :
    ((adapter driver dialect name).change s).from_ st =
      ((st.reply name).map Output.count, st.receive ⟨name, s.sql, s.bindings⟩) := by
  rw [Adapter.from_change]
  rfl

/-- The events around a statement are not in the log. -/
theorem log_dispatch (kind : StatementKind) (s : Statement) {request : Action (Script υ) α}
    {more : List Sent} (h : ∀ st, (request.from_ st).2.log = st.log ++ more) (st : Script υ) :
    (((connection driver dialect name scope).dispatch kind s request).from_ st).2.log =
      st.log ++ more := by
  have hlog := h ((connection driver dialect name scope).observe (.dispatching kind s.sql) st)
  rw [Connection.from_dispatch]
  generalize request.from_ ((connection driver dialect name scope).observe _ st) = after at hlog ⊢
  obtain ⟨r, st'⟩ := after
  cases r <;> exact hlog

/-- A statement is one request, whatever the answer is. -/
theorem sends_dispatch (kind : StatementKind) {s : Statement} {request : Action (Script υ) α}
    (hr : ∀ st, (request.from_ st).2 = st.receive ⟨name, s.sql, s.bindings⟩)
    (h : P ⟨name, s.sql, s.bindings⟩) :
    SendsEach [P] Q ((connection driver dialect name scope).dispatch kind s request) := by
  intro st
  refine ⟨[⟨name, s.sql, s.bindings⟩], log_dispatch kind s (fun st => ?_) st, [P],
    List.prefix_rfl, .own h .nil, fun _ _ => rfl⟩
  rw [hr]
  rfl

theorem sends_rows (kind : StatementKind) {s : Statement} (h : P ⟨name, s.sql, s.bindings⟩) :
    SendsEach [P] Q ((connection driver dialect name scope : Connection (Script υ)).dispatch kind s
      ((adapter driver dialect name).rows s)) :=
  sends_dispatch kind (fun st => by rw [from_rows]) h

theorem sends_change (kind : StatementKind) {s : Statement} (h : P ⟨name, s.sql, s.bindings⟩) :
    SendsEach [P] Q ((connection driver dialect name scope : Connection (Script υ)).dispatch kind s
      ((adapter driver dialect name).change s)) :=
  sends_dispatch kind (fun st => by rw [from_change]) h

/-- What an action sends that compiles a statement first, if it compiles. -/
theorem sends_compiled {r : Except Fault Statement} {run : Statement → Action (Script υ) α}
    (h : ∀ s, r = .ok s → SendsEach [P] Q (run s)) : SendsEach [P] Q (.ofExcept r >>= run) := by
  cases r with
  | error cause => exact Sends.throw cause
  | ok s => exact h s rfl

end

/-- The statement of a query in this form, if there is one, is a request that satisfies `P`. -/
def Asks (P : Sent → Prop) (name : String) (d : Dialect) (q : Query) (f : Form) : Prop :=
  ∀ s, f.statement d q = .ok s → P ⟨name, s.sql, s.bindings⟩

section

variable {driver name : String} {d : Dialect} {scope : Except Fault (Option String)}
variable {P Q : Sent → Prop} {q : Query}

theorem sends_get (h : Asks P name d q .select) :
    SendsEach [P] Q (q.get (connection driver d name scope : Connection (Script υ))) :=
  sends_compiled fun s hs => sends_rows .select (h s hs)

theorem sends_first (h : Asks P name d (q.take 1) .select) :
    SendsEach [P] Q (q.first? (connection driver d name scope : Connection (Script υ))) :=
  (sends_get h).each_then fun _ => .pure _

theorem sends_value (column : String) (h : Asks P name d ((q.select [column]).take 1) .select) :
    SendsEach [P] Q (q.value? (connection driver d name scope : Connection (Script υ)) column) :=
  (sends_first h).each_then fun _ => .pure _

theorem sends_pluck (column : String) (h : Asks P name d (q.select [column]) .select) :
    SendsEach [P] Q (q.pluck (connection driver d name scope : Connection (Script υ)) column) :=
  (sends_get h).each_then fun _ => .pure _

theorem sends_exists (h : Asks P name d q .probe) :
    SendsEach [P] Q (q.exists? (connection driver d name scope : Connection (Script υ))) :=
  sends_compiled fun s hs =>
    (sends_rows .select (h s hs)).each_then fun _ => .pure _

theorem sends_aggregate (a : Aggregate) (column : String)
    (h : Asks P name d q (.aggregate a column)) :
    SendsEach [P] Q
      (q.aggregate? (connection driver d name scope : Connection (Script υ)) a column) :=
  sends_compiled fun s hs =>
    (sends_rows .select (h s hs)).each_then fun _ => .pure _

theorem sends_update (values : List Assignment) (h : Asks P name d q (.update values)) :
    SendsEach [P] Q (q.update (connection driver d name scope : Connection (Script υ)) values) :=
  sends_compiled fun s hs => sends_change .update (h s hs)

theorem sends_delete (h : Asks P name d q .delete) :
    SendsEach [P] Q (q.delete (connection driver d name scope : Connection (Script υ))) :=
  sends_compiled fun s hs => sends_change .delete (h s hs)

end

end ActiveRow.Script
