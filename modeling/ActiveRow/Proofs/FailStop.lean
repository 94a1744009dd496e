import ActiveRow.Proofs.Plan.Selection

/-!
# The first failure is the end

An action that follows a plan stops at the first statement that it asks for and that fails, be it
that the statement does not compile or that the reply is a failure. The fault comes out as it went
in.

* `Script.FailStop`: what that is, in terms of results and of the log.
* `Script.Follows.failStop`: it holds of every action that follows a plan.
* `operations_failStop`: so it holds of all operations on queries and selections.
-/

namespace ActiveRow

namespace Script

variable {υ α : Type} {name : String}

/-- What an action adds to the log. -/
def added (a : Action (Script υ) α) (st : Script υ) : List Sent :=
  (a.from_ st).2.log.drop st.log.length

/-- **The first failure is the end** of an action with a plan. Places are counted from zero, among
the statements and the replies alike. -/
structure FailStop (name : String) (strict : Prop) (p : Plan υ α) (a : Action (Script υ) α) :
    Prop where
  /-- The action sends what its plan comes to and what compiles, and ends as the plan does. -/
  planned : ∀ st : Script υ,
    let o := p.run (st.pending name) st.user
    (a.from_ st).1 = o.result ∧ (a.from_ st).2.log = st.log ++ o.sent.map (request name)
  /-- When the reply to a statement that is asked is a failure, the failure is the result, and the
  statement is the last one. -/
  failed : ∀ (st : Script υ) (k : Nat) (s : Statement) (cause : Fault),
    (p.run (st.pending name) st.user).attempts[k]? = some (.asked (.ok s)) →
      (st.pending name)[k]? = some (.error cause) →
        (a.from_ st).1 = .error cause ∧
          ∃ before, before.length = k ∧ added a st = before ++ [request name s]
  /-- Under a strict plan that goes for every reply that is received. -/
  received : strict → ∀ (st : Script υ) (k : Nat) (cause : Fault), k < (added a st).length →
    (st.pending name)[k]? = some (.error cause) →
      (a.from_ st).1 = .error cause ∧ (added a st).length = k + 1
  /-- When a statement does not compile, the fault is the result, and only the statements before it
  are sent. -/
  refused : ∀ (st : Script υ) (k : Nat) (cause : Fault),
    (p.run (st.pending name) st.user).attempts[k]? = some (.asked (.error cause)) →
      (a.from_ st).1 = .error cause ∧ (added a st).length = k
  /-- A statement is the same one in every run whose replies up to it are the same. -/
  causal : ∀ (st st' : Script υ) (k : Nat), st'.user = st.user →
    (st'.pending name).take k = (st.pending name).take k →
      (added a st').take (k + 1) = (added a st).take (k + 1)

namespace Follows

variable {strict : Prop} {p : Plan υ α} {a : Action (Script υ) α} (h : Follows name strict p a)

include h

theorem added_eq (st : Script υ) :
    added a st = (p.run (st.pending name) st.user).sent.map (request name) := by
  rw [added, (h.runs st).log, List.drop_left]

theorem failed {st : Script υ} {k : Nat} {s : Statement} {cause : Fault}
    (hk : (p.run (st.pending name) st.user).attempts[k]? = some (.asked (.ok s)))
    (hreply : (st.pending name)[k]? = some (.error cause)) :
    (a.from_ st).1 = .error cause ∧
      ∃ before, before.length = k ∧ added a st = before ++ [request name s] := by
  have hfault : (Plan.Attempt.asked (.ok s)).fault? (Plan.replyTo (st.pending name) k) =
      some cause := by
    simp [Plan.replyTo, hreply, Plan.Attempt.fault?]
  obtain ⟨hresult, hlast⟩ := p.run_fault _ _ k hk hfault
  obtain ⟨before, hlength, hsent⟩ := p.sent_of_last hk hlast
  refine ⟨(h.runs st).result.trans hresult, before.map (request name), by simp [hlength], ?_⟩
  rw [h.added_eq, hsent, List.map_append]
  rfl

theorem refused {st : Script υ} {k : Nat} {cause : Fault}
    (hk : (p.run (st.pending name) st.user).attempts[k]? = some (.asked (.error cause))) :
    (a.from_ st).1 = .error cause ∧ (added a st).length = k := by
  obtain ⟨hresult, hlast⟩ := p.run_fault _ _ k hk rfl
  obtain ⟨before, hlength, hsent⟩ := p.sent_of_last hk hlast
  refine ⟨(h.runs st).result.trans hresult, ?_⟩
  rw [h.added_eq, hsent, List.length_map, List.length_append, hlength]
  rfl

theorem received (hs : strict) {st : Script υ} {k : Nat} {cause : Fault}
    (hk : k < (added a st).length) (hreply : (st.pending name)[k]? = some (.error cause)) :
    (a.from_ st).1 = .error cause ∧ (added a st).length = k + 1 := by
  have hattempts : k < (p.run (st.pending name) st.user).attempts.length := by
    rw [h.added_eq, List.length_map] at hk
    exact Nat.lt_of_lt_of_le hk (List.length_filterMap_le ..)
  have hget := List.getElem?_eq_getElem hattempts
  obtain ⟨compiled, ha⟩ := (h.heeds hs).asked _ _ _ (List.getElem_mem hattempts)
  rw [ha] at hget
  cases compiled with
  | error cause' => exact absurd (h.refused hget).2 (Nat.ne_of_gt hk)
  | ok s =>
    obtain ⟨hresult, before, hlength, hadded⟩ := h.failed hget hreply
    exact ⟨hresult, by rw [hadded, List.length_append, hlength]; rfl⟩

/-- An action that follows a plan stops at the first failure. -/
theorem failStop : FailStop name strict p a where
  planned st := ⟨(h.runs st).result, (h.runs st).log⟩
  failed _ _ _ _ := h.failed
  received hs _ _ _ := h.received hs
  refused _ _ _ := h.refused
  causal st st' k huser hreplies := by
    rw [h.added_eq, h.added_eq, huser, ← List.map_take, ← List.map_take,
      p.sent_causal _ _ _ k hreplies]

end Follows

end Script

open Script (FailStop)

/-- **No operation survives a failure.** Whatever the replies are, an operation on a query or a
selection sends the statements of its plan and no other. The first failed reply is its result, as
the adapter gave it, and it sends nothing more. A statement that does not compile is not sent, and
its fault is the result. Until then the statements are those of every run with these replies.
Loaders and visitors of the caller may take the failures of their own statements and go on; if they
do not (`strict`), no failed reply is survived at all. No operation on chunks comes to its bound
when that is beyond the replies that are left. -/
theorem operations_failStop {υ : Type} {driver name : String} {d : Dialect}
    {scope : Except Fault (Option String)} {strict : Prop} {g : Guests υ} :
    let c : Connection (Script υ) := Script.connection driver d name scope
    (∀ (α : Type) (q : Query) (op : Query.Terminal α),
        FailStop name True (op.plan (υ := υ) driver d q) (op.run q c)) ∧
      ∀ (s : Selection (Script υ)), s.Hosts name strict c g →
        (∀ (α : Type) (now : Timestamp) (op : Selection.Terminal (Script υ) α),
          op.Hosts name strict g →
            FailStop name strict (op.plan driver d g s now) (op.run s c now)) ∧
        ∀ (visit : Collection → Action (Script υ) Bool),
          (∀ records, Script.Follows name strict (g.visits records) (visit records)) →
            ∀ (st : Script υ) (bound : Nat) (size : UInt64), (st.pending name).length < bound →
              ((s.chunk c bound size visit).from_ st).1 ≠ .ok .unfinished ∧
                ((s.chunkByKey c bound size visit).from_ st).1 ≠ .ok .unfinished :=
  ⟨fun _ q op => (op.follows q).failStop, fun _ hs =>
    ⟨fun _ _ op hv => (op.follows hs hv).failStop,
      fun _ hv _ _ size hbound => Selection.chunks_finish hs hv hbound size⟩⟩

/-- Chunks of users with their posts: the posts of the first user cannot be had, so the chunk is not
visited. -/
theorem operations_failStop_posts :
    let posts : Relation := Model.asMany { table := "posts" } "user_id"
    let s : Selection (Script Nat) :=
      ((Selection.all { table := "users" }).load ["posts"]).withLoader "posts" posts.loader
    let visit : Collection → Action (Script Nat) Bool := fun records => do
      .update fun st => { st with user := st.user + records.size }
      pure true
    let g : Guests Nat :=
      ⟨posts.plan .postgres, fun records => .turns (· + records.size) fun _ => pure true⟩
    let c : Connection (Script Nat) := Script.connection "pg" .postgres "main" (.ok none)
    let op : Selection.Terminal (Script Nat) Selection.Ending := .chunk 9 100 visit
    let cause : Fault := .query (.refused "42P01")
    let st : Script Nat := (Script.start 0).prepare "main"
      [.ok (.ofRows [Keyed.ofList [("id", .int 1)]]), .error cause, .ok (.affected 0)]
    s.Hosts "main" True c g ∧ op.Hosts "main" True g ∧
      ((op.run s c .epoch).from_ st).1 = .error cause ∧
        (Script.added (op.run s c .epoch) st).length = 2 ∧ (st.pending "main").length < 9 ∧
          ((s.chunkByKey c 9 100 visit).from_ st).1 ≠ .ok .unfinished := by
  intro posts s visit g c op cause st
  have hs : s.Hosts "main" True c g := by
    intro relation loader h records
    have h : (if "posts" = relation then some posts.loader else none) = some loader := h
    obtain ⟨rfl, hloader⟩ := Option.ite_none_right_eq_some.1 h
    obtain rfl := Option.some.inj hloader
    exact posts.follows "posts" records
  have hv : op.Hosts "main" True g := fun records =>
    ⟨fun _ => ⟨rfl, (List.append_nil _).symm, rfl, rfl⟩, fun _ _ => trivial⟩
  have hstop := (operations_failStop.2 s hs).1 _ .epoch op hv
  have hbound : (st.pending "main").length < 9 := by decide
  have hends := ((operations_failStop.2 s hs).2 visit hv st 9 100 hbound).2
  have hsent : (Script.added (op.run s c .epoch) st).length = 2 := by rfl
  have hk : 1 < (Script.added (op.run s c .epoch) st).length := by rw [hsent]; decide
  obtain ⟨hresult, hadded⟩ := hstop.received trivial st 1 cause hk rfl
  exact ⟨hs, hv, hresult, hadded, hbound, hends⟩

end ActiveRow
