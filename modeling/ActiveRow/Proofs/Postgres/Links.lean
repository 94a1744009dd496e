import ActiveRow.Postgres.Client
import ActiveRow.Proofs.Action

/-!
# What becomes of a link

A link remembers two things, the connection that it holds and whether it counts as connected.
Between the uses of its adapter the rest of the client may change at will: the server, the pool, and
the links of other adapters.

* `Link.after`: what a use makes of a direct link, by whether a connection can be opened.
* `links_use_direct`, `links_use_pinned`: one step of either kind of link.
* `Runs.connected_or`: over any run, a direct link counts as connected exactly when it holds a
  connection, unless that was opened for a transaction and nobody connected since.
* `Runs.link_pinned`: over any run, a pinned link that gave its connection up stays without one.
* `links_consistent`: both kinds of links.
-/

namespace ActiveRow.Postgres

/-- A use of an adapter. -/
inductive Use where
  | connect
  | disconnect
  | query (sql : String) (values : List Value)
  | begin_
  | commit
  | rollback

namespace Use

def run {σ : Type} (a : Adapter σ) : Use → Action σ Unit
  | connect => a.connect
  | disconnect => a.disconnect
  | query sql values => do
    let _ ← a.query sql values
    pure ()
  | begin_ => a.begin_
  | commit => a.commit
  | rollback => a.rollback

theorem from_query {σ : Type} (a : Adapter σ) (sql : String) (values : List Value) (s : σ) :
    ((query sql values).run a).from_ s =
      (((a.query sql values).from_ s).1.map fun _ => (), ((a.query sql values).from_ s).2) := by
  rw [run, Action.from_bind]
  rcases (a.query sql values).from_ s with ⟨r, s'⟩
  cases r <;> rfl

/-- Whether a link that holds no connection is asked for one. -/
def Asks : Use → Prop
  | connect | query _ _ | begin_ => True
  | _ => False

/-- Whether a transaction is over for its link, however that went. -/
def Ends : Use → Prop
  | disconnect | commit | rollback => True
  | _ => False

/-- Whether a link counts as connected afterwards, or holds nothing, whatever it held before. -/
def Settles : Use → Prop
  | connect | disconnect => True
  | _ => False

end Use

/-- A direct link after a use, when `opened` is the connection that could be opened, if any. -/
def Link.after (opened : Option Nat) (l : Link) : Use → Link
  | .connect =>
    match l.held, opened with
    | some _, _ => { l with connected := true }
    | none, some n => { l with held := some n, connected := true }
    | none, none => l
  | .disconnect => { l with held := none, connected := false }
  | .query _ _ =>
    match l.held, opened with
    | none, some n => { l with held := some n, connected := true }
    | _, _ => l
  | .begin_ =>
    match l.held, opened with
    | none, some n => { l with held := some n }
    | _, _ => l
  | .commit | .rollback => l

namespace Client

variable {i : Nat} {l : Link} {c : Client}

/-! ### Parts of uses -/

theorem from_link (hl : c.links[i]? = some l) : (link i).from_ c = (.ok l, c) := by
  have hget : c.links.getD i default = l := by rw [List.getD_eq_getElem?_getD, hl]; rfl
  rw [← hget]
  rfl

theorem links_setLink (l' : Link) (hl : c.links[i]? = some l) :
    (c.setLink i l').links[i]? = some l' := by
  obtain ⟨hi, -⟩ := List.getElem?_eq_some_iff.1 hl
  exact List.getElem?_set_self hi

/-- An action of the server leaves the links alone. -/
theorem links_onServer {α : Type} (a : Action Server α) (c : Client) :
    ((onServer a).from_ c).2.links = c.links := rfl

theorem links_giveBack (n : Nat) (c : Client) : (c.giveBack n).links = c.links := by
  unfold giveBack
  split <;> rfl

theorem links_letGo (hl : c.links[i]? = some l) :
    (c.letGo i).links[i]? = some { l with held := none } := by
  have hset := links_setLink { l with held := none } hl
  unfold letGo
  rw [hl]
  dsimp only
  split
  · exact hset
  · exact hset
  · rw [links_giveBack]
    exact hset

/-- A statement that controls a transaction goes over the connection that is held, or fails. -/
theorem links_control (statement : String) (c : Client) :
    ((control i statement).from_ c).2.links = c.links := by
  have hlink : (link i).from_ c = (.ok (c.links.getD i default), c) := rfl
  simp only [control, Action.from_bind, hlink]
  split <;> rfl

/-! ### Links that hold a connection -/

section

variable {n : Nat} (hl : c.links[i]? = some l) (hheld : l.held = some n)

include hl hheld

theorem from_connect_held (hpool : l.source ≠ .pool) :
    (connect i).from_ c = (.ok (), c.setLink i { l with connected := true }) := by
  rw [connect, Action.from_bind, from_link hl]
  dsimp only
  rw [hheld]
  split
  · contradiction
  · rfl
  · contradiction

theorem from_query_held (sql : String) (values : List Value) :
    (query i sql values).from_ c = (onServer (Server.execute n sql values)).from_ c := by
  rw [query, Action.from_bind, from_link hl]
  simp only [hheld]

theorem from_begin_held : (begin_ i).from_ c = (control i "BEGIN").from_ c := by
  rw [begin_, Action.from_bind, from_link hl]
  simp only [hheld, Option.isNone_some, Bool.false_eq_true, if_false]

/-- Asking for a connection that is held already changes the flag at most. -/
theorem links_use_held (hpool : l.source ≠ .pool) {u : Use} (hu : u.Asks) :
    ∃ connected, ((u.run (adapter i)).from_ c).2.links[i]? = some { l with connected } := by
  cases u with
  | connect =>
    refine ⟨true, ?_⟩
    show ((connect i).from_ c).2.links[i]? = _
    rw [from_connect_held hl hheld hpool]
    exact links_setLink _ hl
  | query sql values =>
    refine ⟨l.connected, ?_⟩
    rw [Use.from_query]
    show ((query i sql values).from_ c).2.links[i]? = _
    rw [from_query_held hl hheld, links_onServer, hl]
  | begin_ =>
    refine ⟨l.connected, ?_⟩
    show ((begin_ i).from_ c).2.links[i]? = _
    rw [from_begin_held hl hheld, links_control, hl]
  | _ => exact hu.elim

end

/-- Disconnecting lets go of the connection. -/
theorem links_disconnect (hl : c.links[i]? = some l) (hpool : l.source ≠ .pool) :
    ((disconnect i).from_ c).2.links[i]? = some { l with held := none, connected := false } := by
  simp only [disconnect, Action.from_bind, from_link hl, Action.from_update, if_neg hpool]
  exact links_setLink _ (links_letGo hl)

/-! ### Direct links -/

section

variable {known : Bool} (hl : c.links[i]? = some l) (hs : l.source = .direct known)

include hs

theorem source_ne_pool : l.source ≠ .pool := by simp [hs]

include hl

/-- Opening a connection leaves the links alone, whether it succeeds or not. -/
theorem links_acquire : ((acquire l).from_ c).2.links[i]? = some l := by
  unfold acquire
  rw [hs]
  cases known <;> exact hl

theorem links_connect :
    ∃ opened, ((connect i).from_ c).2.links[i]? = some (l.after opened .connect) := by
  cases hheld : l.held with
  | some n =>
    refine ⟨none, ?_⟩
    simp only [from_connect_held hl hheld (source_ne_pool hs), Link.after, hheld]
    exact links_setLink _ hl
  | none =>
    have hkeep := links_acquire hl hs
    rw [connect, Action.from_bind, from_link hl]
    simp only [hs, hheld, Link.after, Action.from_bind]
    rcases hopen : (acquire l).from_ c with ⟨r, c'⟩
    rw [hopen] at hkeep
    cases r with
    | ok n => exact ⟨some n, links_setLink _ hkeep⟩
    | error cause => exact ⟨none, hkeep⟩

theorem links_query (sql : String) (values : List Value) :
    ∃ opened, ((query i sql values).from_ c).2.links[i]? =
      some (l.after opened (.query sql values)) := by
  cases hheld : l.held with
  | some n =>
    refine ⟨none, ?_⟩
    simp only [from_query_held hl hheld, links_onServer, hl, Link.after, hheld]
  | none =>
    have hkeep := links_acquire hl hs
    rw [query, Action.from_bind, from_link hl]
    simp only [hheld, Link.after, Action.from_bind, if_neg (source_ne_pool hs)]
    rcases hopen : (acquire l).from_ c with ⟨r, c'⟩
    rw [hopen] at hkeep
    cases r with
    | ok n =>
      refine ⟨some n, ?_⟩
      simp only [Action.from_update, links_onServer]
      exact links_setLink _ hkeep
    | error cause => exact ⟨none, hkeep⟩

theorem links_begin :
    ∃ opened, ((begin_ i).from_ c).2.links[i]? = some (l.after opened .begin_) := by
  cases hheld : l.held with
  | some n =>
    refine ⟨none, ?_⟩
    simp only [from_begin_held hl hheld, links_control, hl, Link.after, hheld]
  | none =>
    have hkeep := links_acquire hl hs
    rw [begin_, Action.from_bind, from_link hl]
    simp only [hheld, Link.after, Option.isNone_none, if_true, Action.from_bind]
    rcases hopen : (acquire l).from_ c with ⟨r, c'⟩
    rw [hopen] at hkeep
    cases r with
    | ok n =>
      refine ⟨some n, ?_⟩
      simp only [Action.from_update, links_control]
      exact links_setLink _ hkeep
    | error cause => exact ⟨none, hkeep⟩

theorem links_finish_direct (statement : String) :
    ((finish i statement).from_ c).2.links[i]? = some l := by
  have hkeep : ((control i statement).from_ c).2.links[i]? = some l := by rw [links_control, hl]
  rw [finish, Action.from_bind, Action.from_attempt]
  simp only [Action.from_bind, from_link hkeep, hs]
  exact hkeep

/-- **One step of a direct link.** -/
theorem links_use_direct (u : Use) :
    ∃ opened, ((u.run (adapter i)).from_ c).2.links[i]? = some (l.after opened u) := by
  cases u with
  | connect => exact links_connect hl hs
  | disconnect => exact ⟨none, links_disconnect hl (source_ne_pool hs)⟩
  | query sql values =>
    obtain ⟨opened, h⟩ := links_query hl hs sql values
    refine ⟨opened, ?_⟩
    rw [Use.from_query]
    exact h
  | begin_ => exact links_begin hl hs
  | commit => exact ⟨none, links_finish_direct hl hs "COMMIT"⟩
  | rollback => exact ⟨none, links_finish_direct hl hs "ROLLBACK"⟩

end

/-! ### Pinned links -/

section

variable (hl : c.links[i]? = some l) (hs : l.source = .pinned)

include hl hs

/-- **A pinned link that holds no connection is refused one**, and nothing else happens. -/
theorem from_use_released (hheld : l.held = none) {u : Use} (hu : u.Asks) :
    (u.run (adapter i)).from_ c = (.error (.connection .released), c) := by
  have hacquire := acquire_pinned hs c
  cases u with
  | connect =>
    show (connect i).from_ c = _
    rw [connect, Action.from_bind, from_link hl]
    simp only [hs, hheld, Action.from_bind, hacquire]
  | query sql values =>
    have hquery : (query i sql values).from_ c = (.error (.connection .released), c) := by
      rw [query, Action.from_bind, from_link hl]
      simp only [hheld, Action.from_bind, hacquire]
    rw [Use.from_query]
    show (((query i sql values).from_ c).1.map _, ((query i sql values).from_ c).2) = _
    rw [hquery]
    rfl
  | begin_ =>
    show (begin_ i).from_ c = _
    rw [begin_, Action.from_bind, from_link hl]
    simp only [hheld, Option.isNone_none, if_true, Action.from_bind, hacquire]
  | _ => exact hu.elim

theorem links_finish_pinned (statement : String) :
    ((finish i statement).from_ c).2.links[i]? = some { l with held := none } := by
  have hkeep : ((control i statement).from_ c).2.links[i]? = some l := by rw [links_control, hl]
  rw [finish, Action.from_bind, Action.from_attempt]
  simp only [Action.from_bind, from_link hkeep, hs, Action.from_update, Action.from_ofExcept]
  rw [links_letGo hkeep, hs]

/-- **One step of a pinned link.** It holds nothing once its transaction is over, and does not get
anything again. -/
theorem links_use_pinned (u : Use) :
    ∃ l', ((u.run (adapter i)).from_ c).2.links[i]? = some l' ∧ l'.source = .pinned ∧
      (u.Ends ∨ l.held = none → l'.held = none) := by
  have hpool : l.source ≠ .pool := by simp [hs]
  have hasks : ∀ {u : Use}, u.Asks → ¬u.Ends →
      ∃ l', ((u.run (adapter i)).from_ c).2.links[i]? = some l' ∧ l'.source = .pinned ∧
        (u.Ends ∨ l.held = none → l'.held = none) := by
    intro u hu hgoes
    cases hheld : l.held with
    | none =>
      rw [from_use_released hl hs hheld hu]
      exact ⟨l, hl, hs, fun _ => hheld⟩
    | some n =>
      obtain ⟨connected, h⟩ := links_use_held hl hheld hpool hu
      exact ⟨_, h, hs, fun hends => hends.elim (fun hends => absurd hends hgoes) nofun⟩
  cases u with
  | disconnect => exact ⟨_, links_disconnect hl hpool, hs, fun _ => rfl⟩
  | commit => exact ⟨_, links_finish_pinned hl hs "COMMIT", hs, fun _ => rfl⟩
  | rollback => exact ⟨_, links_finish_pinned hl hs "ROLLBACK", hs, fun _ => rfl⟩
  | connect | query sql values | begin_ => exact hasks trivial id

end

/-! ### Runs -/

/-- The connection that a link holds. -/
def holding (i : Nat) (c : Client) : Option Nat := c.links[i]?.bind Link.held

/-- Whether a link counts as connected. -/
def isConnected (i : Nat) (c : Client) : Bool := c.links[i]?.any Link.connected

/-- What uses of the adapter of a link make of a client, in order. Whatever else happens between
them, the link is left alone. -/
inductive Runs (i : Nat) (c : Client) : List Use → Client → Prop where
  | start : Runs i c [] c
  | elsewhere {us : List Use} {c' c'' : Client} (h : Runs i c us c')
      (hlink : c''.links[i]? = c'.links[i]?) : Runs i c us c''
  | use {us : List Use} {c' : Client} (h : Runs i c us c') (u : Use) :
      Runs i c (us ++ [u]) ((u.run (adapter i)).from_ c').2

/-- The connection that a link holds was opened to begin a transaction, and nobody connected
since. -/
def OpenedSilently (i : Nat) (c : Client) (us : List Use) (c' : Client) : Prop :=
  ∃ before after c₁, us = before ++ .begin_ :: after ∧ Runs i c before c₁ ∧ holding i c₁ = none ∧
    holding i ((begin_ i).from_ c₁).2 ≠ none ∧ Runs i ((begin_ i).from_ c₁).2 after c' ∧
    ∀ u ∈ after, ¬u.Settles

end Client

namespace Link

variable {l : Link} {opened : Option Nat} {u : Use}

theorem source_after (opened : Option Nat) (l : Link) (u : Use) :
    (l.after opened u).source = l.source := by
  cases u <;> simp only [after] <;> split <;> rfl

/-- What counts as connected holds a connection. -/
theorem held_after (h : l.connected = true → l.held.isSome = true)
    (hconnected : (l.after opened u).connected = true) : (l.after opened u).held.isSome = true := by
  cases u <;> cases hheld : l.held <;> cases opened <;> simp_all [after]

/-- A link that counts as it should goes on doing so, unless it is opened for a transaction. -/
theorem connected_after (opened : Option Nat) (u : Use) (h : l.connected = l.held.isSome) :
    (l.after opened u).connected = (l.after opened u).held.isSome ∨
      u = .begin_ ∧ l.held = none ∧ (l.after opened u).held ≠ none := by
  cases u <;> cases hheld : l.held <;> cases opened <;> simp_all [after]

theorem connected_after_settles (h : l.held.isSome = true) (hu : u.Settles) :
    (l.after opened u).connected = (l.after opened u).held.isSome := by
  cases u <;> cases hheld : l.held <;> simp_all [after, Use.Settles]

theorem after_of_not_settles (h : l.held.isSome = true) (hu : ¬u.Settles) :
    l.after opened u = l := by
  cases u <;> cases hheld : l.held <;> simp_all [after, Use.Settles]

end Link

namespace Client

variable {i : Nat} {c c' : Client} {us : List Use} {l : Link}

theorem holding_eq (hl : c.links[i]? = some l) : holding i c = l.held := by
  rw [holding, hl]
  rfl

theorem isConnected_eq (hl : c.links[i]? = some l) : isConnected i c = l.connected := by
  rw [isConnected, hl]
  rfl

namespace Runs

section

variable {known : Bool} (h : Runs i c us c') (hl : c.links[i]? = some l)
  (hs : l.source = .direct known)

include h hl hs

/-- A direct link stays one, and holds a connection whenever it counts as connected. -/
theorem link_direct (hl₀ : l.connected = true → l.held.isSome = true) :
    ∃ l', c'.links[i]? = some l' ∧ l'.source = .direct known ∧
      (l'.connected = true → l'.held.isSome = true) := by
  induction h with
  | start => exact ⟨l, hl, hs, hl₀⟩
  | elsewhere _ hlink ih =>
    rw [hlink]
    exact ih
  | use _ u ih =>
    obtain ⟨l', hl', hs', hheld⟩ := ih
    obtain ⟨opened, hafter⟩ := links_use_direct hl' hs' u
    exact ⟨_, hafter, (Link.source_after opened l' u).trans hs', Link.held_after hheld⟩

/-- Once open, a direct link stays as it is until somebody connects or disconnects. -/
theorem link_unsettled (hheld : l.held.isSome = true) (hus : ∀ u ∈ us, ¬u.Settles) :
    c'.links[i]? = some l := by
  induction h with
  | start => exact hl
  | elsewhere _ hlink ih =>
    rw [hlink]
    exact ih hus
  | use _ u ih =>
    have hl' := ih fun u hu => hus u (List.mem_append_left _ hu)
    obtain ⟨opened, hafter⟩ := links_use_direct hl' hs u
    rw [hafter, Link.after_of_not_settles hheld (hus u (by simp))]

end

/-- Over any run a pinned link stays one, and once its transaction is over it holds nothing. -/
theorem link_pinned (h : Runs i c us c') (hl : c.links[i]? = some l) (hs : l.source = .pinned) :
    ∃ l', c'.links[i]? = some l' ∧ l'.source = .pinned ∧ ((∃ u ∈ us, u.Ends) → l'.held = none) := by
  induction h with
  | start => exact ⟨l, hl, hs, fun ⟨_, hu, _⟩ => nomatch hu⟩
  | elsewhere _ hlink ih =>
    rw [hlink]
    exact ih
  | use _ u ih =>
    obtain ⟨l', hl', hs', hheld⟩ := ih
    obtain ⟨l'', hl'', hs'', hheld'⟩ := links_use_pinned hl' hs' u
    refine ⟨l'', hl'', hs'', fun ⟨v, hv, hends⟩ => hheld' ?_⟩
    rcases List.mem_append.1 hv with hv | hv
    · exact .inr (hheld ⟨v, hv, hends⟩)
    · exact .inl (List.mem_singleton.1 hv ▸ hends)

end Runs

/-! ### Direct links over runs -/

section

variable {known : Bool} (hl : c.links[i]? = some l) (hs : l.source = .direct known)
  (hl₀ : l.connected = true → l.held.isSome = true)

include hl hs hl₀

/-- A link that was opened silently holds a connection and does not count as connected. -/
theorem OpenedSilently.link (h : OpenedSilently i c us c') :
    ∃ l', c'.links[i]? = some l' ∧ l'.held.isSome = true ∧ l'.connected = false := by
  obtain ⟨before, after, c₁, -, hbefore, hfree, hopen, hafter, hus⟩ := h
  obtain ⟨l₁, hl₁, hs₁, hheld₁⟩ := hbefore.link_direct hl hs hl₀
  rw [holding_eq hl₁] at hfree
  have hoff : l₁.connected = false := by
    cases hc : l₁.connected with
    | false => rfl
    | true =>
      rw [hfree] at hheld₁
      cases hheld₁ hc
  obtain ⟨opened, hbegin⟩ := links_begin hl₁ hs₁
  rw [holding_eq hbegin] at hopen
  have hs₂ := (Link.source_after opened l₁ .begin_).trans hs₁
  have hsome : (l₁.after opened .begin_).held.isSome = true := Option.isSome_iff_ne_none.2 hopen
  refine ⟨_, hafter.link_unsettled hbegin hs₂ hsome hus, hsome, ?_⟩
  cases opened <;> simp [Link.after, hfree, hoff]

/-- **Over any run a direct link counts as it should**, unless it was opened silently. -/
theorem Runs.connected_or (h : Runs i c us c') (hl₁ : l.connected = l.held.isSome) :
    isConnected i c' = (holding i c').isSome ∨ OpenedSilently i c us c' := by
  induction h with
  | start =>
    left
    rw [isConnected_eq hl, holding_eq hl, hl₁]
  | elsewhere _ hlink ih =>
    rcases ih with ih | ⟨before, after, c₁, hus, hbefore, hfree, hopen, hafter, hquiet⟩
    · left
      simpa only [isConnected, holding, hlink] using ih
    · exact .inr ⟨before, after, c₁, hus, hbefore, hfree, hopen, hafter.elsewhere hlink, hquiet⟩
  | use h u ih =>
    obtain ⟨l', hl', hs', -⟩ := h.link_direct hl hs hl₀
    obtain ⟨opened, hafter'⟩ := links_use_direct hl' hs' u
    rw [isConnected_eq hafter', holding_eq hafter']
    rcases ih with ih | hsilent
    · rw [isConnected_eq hl', holding_eq hl'] at ih
      rcases Link.connected_after opened u ih with ih | ⟨rfl, hfree, hopen⟩
      · exact .inl ih
      · exact .inr ⟨_, [], _, rfl, h, (holding_eq hl').trans hfree,
          fun hnone => hopen ((holding_eq hafter').symm.trans hnone), .start, nofun⟩
    · obtain ⟨l'', hl'', hsome, -⟩ := hsilent.link hl hs hl₀
      obtain rfl := Option.some.inj (hl'.symm.trans hl'')
      by_cases hu : u.Settles
      · exact .inl (Link.connected_after_settles hsome hu)
      · obtain ⟨before, after, c₁, rfl, hbefore, hfree, hopen, hafter, hquiet⟩ := hsilent
        refine .inr ⟨before, after ++ [u], c₁, by simp, hbefore, hfree, hopen, hafter.use u, ?_⟩
        intro v hv
        rcases List.mem_append.1 hv with hv | hv
        · exact hquiet v hv
        · exact List.mem_singleton.1 hv ▸ hu

end

/-! ### Both kinds of links -/

/-- **Links over runs.** A client made for an address counts as connected exactly when it holds a
connection, over any run of uses and whatever else happens between them, unless the connection was
opened to begin a transaction and nobody connected since: then it holds one and does not count as
connected. A pinned link whose transaction is over, however that went, is refused a connection, and
nothing is sent over any. -/
theorem links_consistent (server : Server) :
    (∀ (us : List Use) (c : Client), Runs 0 (ofAddress server) us c →
      (isConnected 0 c = true → (holding 0 c).isSome = true) ∧
        (isConnected 0 c = (holding 0 c).isSome ↔ ¬OpenedSilently 0 (ofAddress server) us c)) ∧
    ∀ (i : Nat) (c c' : Client) (l : Link) (us : List Use), c.links[i]? = some l →
      l.source = .pinned → Runs i c us c' → (∃ u ∈ us, u.Ends) → holding i c' = none ∧
        ∀ u : Use, u.Asks →
          (u.run (adapter i)).from_ c' = (.error (.connection .released), c') := by
  constructor
  · intro us c h
    have hl : (ofAddress server).links[0]? = some { source := .direct true } := rfl
    obtain ⟨l, hl', -, hheld⟩ := h.link_direct hl rfl nofun
    rw [isConnected_eq hl', holding_eq hl']
    refine ⟨hheld, fun heq hsilent => ?_, fun hloud => ?_⟩
    · obtain ⟨l', hl'', hsome, hoff⟩ := hsilent.link hl rfl nofun
      obtain rfl := Option.some.inj (hl'.symm.trans hl'')
      rw [hoff, hsome] at heq
      cases heq
    · have hor := (h.connected_or hl rfl nofun rfl).resolve_right hloud
      rwa [isConnected_eq hl', holding_eq hl'] at hor
  · intro i c c' l us hl hs h hends
    obtain ⟨l', hl', hs', hheld⟩ := h.link_pinned hl hs
    exact ⟨(holding_eq hl').trans (hheld hends),
      fun u hu => from_use_released hl' hs' (hheld hends) hu⟩

/-- A transaction whose rollback fails, and a connection that is opened for a query. -/
theorem links_consistent_failedRollback :
    let started := ((pin 0).from_ (ofPool {})).2
    let failing := { started with
      server.replies := [{ failure := some ("40001", .execution), simple := true }] }
    let ended := (Use.rollback.run (adapter 1)).from_ failing
    let asked := ((Use.query "SELECT 1" []).run (adapter 0)).from_ (ofAddress {})
    holding 1 started = some 1 ∧ Runs 1 started [.rollback] ended.2 ∧
      ended.1 = .error (.query (.refused "40001")) ∧ holding 1 ended.2 = none ∧
        (Use.connect.run (adapter 1)).from_ ended.2 = (.error (.connection .released), ended.2) ∧
          Runs 0 (ofAddress {}) [.query "SELECT 1" []] asked.2 ∧ holding 0 asked.2 = some 1 ∧
            isConnected 0 asked.2 = true ∧
              ¬OpenedSilently 0 (ofAddress {}) [.query "SELECT 1" []] asked.2 := by
  intro started failing ended asked
  have hrun : Runs 1 started [.rollback] ended.2 := (Runs.start.elsewhere rfl).use .rollback
  obtain ⟨hloud, hover⟩ := links_consistent {}
  obtain ⟨hnone, hrefused⟩ := hover 1 started ended.2 _ [.rollback] rfl rfl hrun
    ⟨.rollback, List.mem_singleton_self _, trivial⟩
  have hasked : Runs 0 (ofAddress {}) [.query "SELECT 1" []] asked.2 := Runs.start.use _
  exact ⟨rfl, hrun, rfl, hnone, hrefused .connect trivial, hasked, rfl, rfl,
    (hloud _ asked.2 hasked).2.1 rfl⟩

/-- A connection opened to begin a transaction is held, and does not count. -/
theorem begun_uncounted :
    let begun := (Use.begin_.run (adapter 0)).from_ (ofAddress {})
    Runs 0 (ofAddress {}) [.begin_] begun.2 ∧ begun.1 = .ok () ∧ holding 0 begun.2 = some 1 ∧
      isConnected 0 begun.2 = false :=
  ⟨Runs.start.use .begin_, rfl, rfl, rfl⟩

end Client

end ActiveRow.Postgres
