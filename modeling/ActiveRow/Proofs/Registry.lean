import Mathlib.Data.List.Induction
import Mathlib.Data.List.Basic
import ActiveRow.Proofs.Action
import ActiveRow.Registry
import ActiveRow.Script

/-!
# Registries over their calls

A registry is told connections and which name is the default. What it keeps is read off the calls:
under each name the connection added last, and as the default the name that was chosen last while it
was known, or else the name that was added first.

* `connection_ofCalls`, `chosen_ofCalls`: what a registry keeps of its calls.
* `Disconnects`: disconnecting connections one after the other, whatever comes out of each.
* `registry_kept`: what all this comes to for the calls that read a registry.
-/

namespace ActiveRow

/-- A call that changes a registry. -/
inductive Registration (σ : Type) where
  | add (name : String) (c : Connection σ)
  | choose (name : String)

namespace Registration

variable {σ : Type}

/-- The name that a call adds. -/
def addedName? : Registration σ → Option String
  | add name _ => some name
  | choose _ => none

/-- The connection that a call adds under a name. -/
def added? (name : String) : Registration σ → Option (Connection σ)
  | add n c => if n = name then some c else none
  | choose _ => none

/-- The name that a call chooses, when these are known. -/
def chosen? (known : List String) : Registration σ → Option String
  | choose name => if name ∈ known then some name else none
  | add _ _ => none

/-! ### Calls in order -/

/-- The names that were added, in order. -/
def addedNames (calls : List (Registration σ)) : List String := calls.filterMap addedName?

/-- The connection that was added last under a name. -/
def lastAdded? (calls : List (Registration σ)) (name : String) : Option (Connection σ) :=
  (calls.filterMap (added? name)).getLast?

/-- The names that were chosen when they had been added, in order. -/
def chosenNames (calls : List (Registration σ)) : List String :=
  calls.zipIdx.filterMap fun e => e.1.chosen? (addedNames (calls.take e.2))

/-- The name that was chosen last, or else the one that was added first. -/
def defaultName? (calls : List (Registration σ)) : Option String :=
  (chosenNames calls).getLast?.or (addedNames calls).head?

variable (calls : List (Registration σ)) (call : Registration σ)

theorem addedNames_concat :
    addedNames (calls ++ [call]) = addedNames calls ++ call.addedName?.toList := by
  rw [addedNames, List.filterMap_append, addedNames]
  cases call <;> rfl

theorem lastAdded?_concat (name : String) :
    lastAdded? (calls ++ [call]) name = (call.added? name).or (lastAdded? calls name) := by
  rw [lastAdded?, List.filterMap_append]
  cases h : call.added? name <;> simp [h, lastAdded?]

/-- Later calls do not change which earlier ones chose a name. -/
theorem chosenNames_concat : chosenNames (calls ++ [call]) =
    chosenNames calls ++ (call.chosen? (addedNames calls)).toList := by
  have hbefore : ∀ e ∈ calls.zipIdx, e.1.chosen? (addedNames ((calls ++ [call]).take e.2)) =
      e.1.chosen? (addedNames (calls.take e.2)) := by
    rintro ⟨c, i⟩ he
    have hi := List.snd_lt_of_mem_zipIdx he
    rw [List.take_append_of_le_length (by simpa using Nat.le_of_lt hi)]
  have hlast : (calls ++ [call]).take calls.length = calls := List.take_left
  rw [chosenNames, List.zipIdx_append, List.filterMap_append, List.filterMap_congr hbefore,
    chosenNames]
  simp only [Nat.zero_add, List.zipIdx_singleton, List.filterMap_cons, List.filterMap_nil, hlast]
  cases call.chosen? (addedNames calls) <;> rfl

/-- A name was added exactly when there is a connection that was added last under it. -/
theorem isSome_lastAdded?_iff (name : String) :
    (lastAdded? calls name).isSome = true ↔ name ∈ addedNames calls := by
  induction calls using List.reverseRecOn with
  | nil => simp [lastAdded?, addedNames]
  | append_singleton calls call ih =>
    rw [lastAdded?_concat, addedNames_concat, List.mem_append, ← ih]
    cases call with
    | add n c =>
      by_cases hn : n = name
      · simp [added?, addedName?, hn]
      · simp [added?, addedName?, hn, Ne.symm hn]
    | choose n => simp [added?, addedName?]

/-- Only a name that was added is ever chosen. -/
theorem mem_addedNames_of_mem_chosenNames {name : String} (h : name ∈ chosenNames calls) :
    name ∈ addedNames calls := by
  induction calls using List.reverseRecOn with
  | nil => cases h
  | append_singleton calls call ih =>
    rw [addedNames_concat]
    rw [chosenNames_concat] at h
    refine List.mem_append_left _ ?_
    rcases List.mem_append.1 h with h | h
    · exact ih h
    · cases call with
      | add n c => cases h
      | choose n =>
        rw [chosen?] at h
        split at h
        · obtain rfl := List.mem_singleton.1 h
          assumption
        · cases h

theorem mem_addedNames_of_default {name : String} (h : defaultName? calls = some name) :
    name ∈ addedNames calls := by
  rcases Option.or_eq_some_iff.1 h with h | ⟨-, h⟩
  · exact mem_addedNames_of_mem_chosenNames calls (List.mem_of_getLast? h)
  · exact List.mem_of_head? h

/-- There is a default as soon as a name was added. -/
theorem isSome_defaultName?_iff :
    (defaultName? calls).isSome = true ↔ addedNames calls ≠ [] := by
  constructor
  · intro h
    obtain ⟨name, hname⟩ := Option.isSome_iff_exists.1 h
    exact List.ne_nil_of_mem (mem_addedNames_of_default calls hname)
  · intro h
    obtain ⟨name, rest, hadded⟩ := List.exists_cons_of_ne_nil h
    rw [defaultName?, hadded, Option.isSome_or, List.head?_cons, Option.isSome_some, Bool.or_true]

end Registration

namespace Registry

open Registration

variable {σ : Type}

/-- The registry after a call, whatever comes out of the call. -/
def register (r : Registry σ) : Registration σ → Registry σ
  | .add name c => r.add name c
  | .choose name => (r.choose name).2

/-- The registry that calls make. -/
def ofCalls (calls : List (Registration σ)) : Registry σ := calls.foldl register empty

theorem ofCalls_concat (calls : List (Registration σ)) (call : Registration σ) :
    ofCalls (calls ++ [call]) = (ofCalls calls).register call := by
  rw [ofCalls, List.foldl_append]
  rfl

theorem connection_eq_ok_iff (r : Registry σ) (name : String) (c : Connection σ) :
    r.connection name = .ok c ↔ r.connections.get? name = some c := by
  unfold connection
  cases r.connections.get? name <;> simp

variable (calls : List (Registration σ))

/-- **Under each name** a registry keeps the connection that was added last. -/
theorem get?_ofCalls (name : String) :
    (ofCalls calls).connections.get? name = lastAdded? calls name := by
  induction calls using List.reverseRecOn with
  | nil => rfl
  | append_singleton calls call ih =>
    rw [ofCalls_concat, lastAdded?_concat, ← ih]
    cases call with
    | add n c =>
      show ((ofCalls calls).connections.insert n c).get? name = _
      rw [Keyed.get?_insert]
      by_cases hn : n = name
      · simp [added?, hn]
      · simp [added?, hn]
    | choose n =>
      rw [register, choose]
      cases (ofCalls calls).connection n <;> rfl

theorem connection_ofCalls (name : String) (c : Connection σ) :
    (ofCalls calls).connection name = .ok c ↔ lastAdded? calls name = some c := by
  rw [connection_eq_ok_iff, get?_ofCalls]

theorem exists_connection_iff (name : String) :
    (∃ c, (ofCalls calls).connection name = .ok c) ↔ name ∈ addedNames calls := by
  rw [← isSome_lastAdded?_iff, Option.isSome_iff_exists]
  exact exists_congr (connection_ofCalls calls name)

/-- **The default** is the name that was chosen last, or else the one that was added first. -/
theorem chosen_ofCalls : (ofCalls calls).chosen = defaultName? calls := by
  induction calls using List.reverseRecOn with
  | nil => rfl
  | append_singleton calls call ih =>
    rw [ofCalls_concat, defaultName?, chosenNames_concat, addedNames_concat]
    cases call with
    | add n c =>
      show (ofCalls calls).chosen.or (some n) = _
      rw [ih, defaultName?, chosen?, addedName?, Option.toList_none, List.append_nil,
        List.head?_append, Option.or_assoc]
      rfl
    | choose n =>
      have hadded := exists_connection_iff calls n
      rw [register, choose, addedName?, Option.toList_none, List.append_nil]
      cases hc : (ofCalls calls).connection n with
      | ok c =>
        rw [chosen?, if_pos (hadded.1 ⟨c, hc⟩), Option.toList_some, List.getLast?_concat]
        rfl
      | error cause =>
        have hnot : n ∉ addedNames calls := fun hmem => by
          obtain ⟨c, hc'⟩ := hadded.2 hmem
          rw [hc] at hc'
          cases hc'
        rw [chosen?, if_neg hnot, Option.toList_none, List.append_nil]
        exact ih

theorem default_eq_ok_iff (c : Connection σ) : (ofCalls calls).default = .ok c ↔
    ∃ name, defaultName? calls = some name ∧ lastAdded? calls name = some c := by
  rw [default, chosen_ofCalls]
  cases defaultName? calls with
  | none => simp
  | some name => simp [connection_ofCalls]

theorem exists_default_iff :
    (∃ c, (ofCalls calls).default = .ok c) ↔ addedNames calls ≠ [] := by
  rw [← isSome_defaultName?_iff, Option.isSome_iff_exists]
  constructor
  · rintro ⟨c, hc⟩
    obtain ⟨name, hname, -⟩ := (default_eq_ok_iff calls c).1 hc
    exact ⟨name, hname⟩
  · rintro ⟨name, hname⟩
    have hadded := mem_addedNames_of_default calls hname
    obtain ⟨c, hc⟩ := Option.isSome_iff_exists.1 ((isSome_lastAdded?_iff calls name).2 hadded)
    exact ⟨c, (default_eq_ok_iff calls c).2 ⟨name, hname, hc⟩⟩

/-- Choosing a name that was never added fails, and leaves the registry as it is. -/
theorem choose_unknown {name : String} (h : name ∉ addedNames calls) :
    (ofCalls calls).choose name = (.error (.configuration (.connection name)), ofCalls calls) := by
  have hnone : (ofCalls calls).connections.get? name = none := by
    rw [get?_ofCalls, ← Option.not_isSome_iff_eq_none, isSome_lastAdded?_iff]
    exact h
  rw [choose, connection, hnone]

theorem choose_known {name : String} (h : name ∈ addedNames calls) :
    (ofCalls calls).choose name = (.ok (), { ofCalls calls with chosen := some name }) := by
  obtain ⟨c, hc⟩ := (exists_connection_iff calls name).2 h
  rw [choose, hc]

/-! ### Names -/

theorem names_ascending (r : Registry σ) : r.names.Pairwise (· < ·) := by
  have hsorted : r.names.Pairwise fun a b => decide (a ≤ b) = true :=
    List.pairwise_mergeSort (fun a b c hab hbc => by
      simp only [decide_eq_true_eq] at hab hbc ⊢
      exact String.le_trans hab hbc) (fun a b => by simpa using String.le_total a b) _
  have hnodup : r.names.Nodup := (List.mergeSort_perm _ _).nodup_iff.2 r.connections.nodup
  refine (hsorted.and hnodup).imp fun {a b} h => ?_
  refine String.not_le.1 fun hba => h.2 ?_
  exact String.le_antisymm (of_decide_eq_true h.1) hba

theorem mem_names_ofCalls (name : String) :
    name ∈ (ofCalls calls).names ↔ name ∈ addedNames calls := by
  rw [names, List.mem_mergeSort, ← isSome_lastAdded?_iff, ← get?_ofCalls,
    ← Option.ne_none_iff_isSome, Ne, Keyed.get?_eq_none_iff, not_not]

/-! ### Disconnecting -/

/-- Connections are disconnected one after the other, each of them once, and these are the results.
After a failure, which is reported, it goes on with the next one. -/
inductive Disconnects :
    List (String × Connection σ) → List (Except Fault Unit) → σ → σ → Prop where
  | nil (s : σ) : Disconnects [] [] s s
  | ok (name : String) {c : Connection σ} {rest : List (String × Connection σ)}
      {results : List (Except Fault Unit)} {s s' s'' : σ}
      (h : c.adapter.disconnect.from_ s = (.ok (), s')) (more : Disconnects rest results s' s'') :
      Disconnects ((name, c) :: rest) (.ok () :: results) s s''
  | failed (name : String) {c : Connection σ} {rest : List (String × Connection σ)}
      {results : List (Except Fault Unit)} {s s' s'' : σ} {cause : Fault}
      (h : c.adapter.disconnect.from_ s = (.error cause, s'))
      (more : Disconnects rest results (c.observe (.disconnectFailed name cause) s') s'') :
      Disconnects ((name, c) :: rest) (.error cause :: results) s s''

/-- The fault of a result. -/
def fault? : Except Fault Unit → Option Fault
  | .ok () => none
  | .error cause => some cause

theorem from_disconnect (name : String) (c : Connection σ) (s : σ) :
    (disconnect name c).from_ s =
      match c.adapter.disconnect.from_ s with
      | (.ok (), s') => (.ok none, s')
      | (.error cause, s') => (.ok (some cause), c.observe (.disconnectFailed name cause) s') := by
  rw [disconnect, Action.from_bind, Action.from_attempt]
  rcases c.adapter.disconnect.from_ s with ⟨_ | ⟨⟩, s'⟩ <;> rfl

/-- No failure keeps the other connections from being disconnected. -/
theorem from_disconnects (entries : List (String × Connection σ)) : ∀ s : σ,
    ∃ results s', Disconnects entries results s s' ∧
      (entries.mapM fun e => disconnect e.1 e.2 : Action σ (List (Option Fault))).from_ s =
        (.ok (results.map fault?), s') := by
  induction entries with
  | nil => exact fun s => ⟨[], s, .nil s, rfl⟩
  | cons e entries ih =>
    intro s
    obtain ⟨name, c⟩ := e
    rw [List.mapM_cons, Action.from_bind, from_disconnect]
    rcases h : c.adapter.disconnect.from_ s with ⟨cause | ⟨⟩, s'⟩
    · obtain ⟨results, s'', hmore, hrun⟩ := ih (c.observe (.disconnectFailed name cause) s')
      refine ⟨.error cause :: results, s'', .failed name h hmore, ?_⟩
      simp only [Action.from_bind, hrun]
      rfl
    · obtain ⟨results, s'', hmore, hrun⟩ := ih s'
      refine ⟨.ok () :: results, s'', .ok name h hmore, ?_⟩
      simp only [Action.from_bind, hrun]
      rfl

/-- **Every connection is disconnected once.** The first fault, if there is any, comes out. -/
theorem from_disconnectAll (r : Registry σ) (s : σ) :
    ∃ results s', Disconnects r.connections.entries results s s' ∧
      r.disconnectAll.from_ s =
        (((results.filterMap fault?).head?.elim (.ok ()) .error), s') := by
  obtain ⟨results, s', h, hrun⟩ := from_disconnects r.connections.entries s
  refine ⟨results, s', h, ?_⟩
  have hfaults : (results.map fault?).reduceOption = results.filterMap fault? := by
    show (results.map fault?).filterMap id = _
    exact List.filterMap_map
  rw [disconnectAll, Action.from_bind, hrun]
  simp only [hfaults]
  cases results.filterMap fault? <;> rfl

theorem head?_faults_eq_none_iff (results : List (Except Fault Unit)) :
    (results.filterMap fault?).head? = none ↔ ∀ r ∈ results, r = .ok () := by
  rw [List.head?_eq_none_iff, List.filterMap_eq_nil_iff]
  refine forall₂_congr fun r _ => ?_
  rcases r with cause | ⟨⟩ <;> simp [fault?]

theorem mem_of_head?_faults {results : List (Except Fault Unit)} {cause : Fault}
    (h : (results.filterMap fault?).head? = some cause) : .error cause ∈ results := by
  obtain ⟨r, hr, hcause⟩ := List.mem_filterMap.1 (List.mem_of_head? h)
  rcases r with cause' | ⟨⟩
  · obtain rfl := Option.some.inj hcause
    exact hr
  · cases hcause

/-- **Disconnecting a registry** ends well exactly when every connection was disconnected, and
otherwise with the fault of one that was not. -/
theorem exists_disconnects (r : Registry σ) (s : σ) :
    ∃ results, Disconnects r.connections.entries results s (r.disconnectAll.from_ s).2 ∧
      ((r.disconnectAll.from_ s).1 = .ok () ↔ ∀ result ∈ results, result = .ok ()) ∧
        ∀ cause, (r.disconnectAll.from_ s).1 = .error cause → .error cause ∈ results := by
  obtain ⟨results, s', h, hrun⟩ := from_disconnectAll r s
  rw [hrun]
  refine ⟨results, h, ?_, fun cause hcause => ?_⟩
  · rw [← head?_faults_eq_none_iff]
    cases (results.filterMap fault?).head? <;> simp
  · have hfirst : (results.filterMap fault?).head? = some cause := by
      cases hfault : (results.filterMap fault?).head? with
      | none => simp [hfault] at hcause
      | some cause' => simpa [hfault] using hcause
    exact mem_of_head?_faults hfirst

/-- The entries of a registry, in whatever order, are the connections that were added last. -/
theorem mem_entries_iff {entries : List (String × Connection σ)}
    (h : entries.Perm (ofCalls calls).connections.entries) (name : String) (c : Connection σ) :
    (name, c) ∈ entries ↔ lastAdded? calls name = some c := by
  rw [h.mem_iff, ← get?_ofCalls]
  exact ⟨Pairs.get?_of_mem (ofCalls calls).connections.nodup, Pairs.mem_of_get?⟩

/-! ### All of it -/

/-- **What a registry keeps of its calls.** There is a default as soon as a name was added; it is
the connection added last under the default's name, which was chosen last or else added first. A
choice fails exactly for a name that was never added, and then changes nothing. The names are those
that were added, in ascending order. In whatever order the connections come, each one that was added
last under its name is disconnected once, whatever fails, and a fault comes out exactly if one
failed. -/
theorem registry_kept (calls : List (Registration σ)) :
    (∀ c, (ofCalls calls).default = .ok c ↔
      ∃ name, defaultName? calls = some name ∧ lastAdded? calls name = some c) ∧
    ((∃ c, (ofCalls calls).default = .ok c) ↔ addedNames calls ≠ []) ∧
    (∀ name, ((ofCalls calls).choose name).1 = .ok () ↔ name ∈ addedNames calls) ∧
    (∀ name, name ∉ addedNames calls →
      ((ofCalls calls).choose name).2 = ofCalls calls ∧
        ofCalls (calls ++ [.choose name]) = ofCalls calls) ∧
    ((ofCalls calls).names.Pairwise (· < ·) ∧
      ∀ name, name ∈ (ofCalls calls).names ↔ name ∈ addedNames calls) ∧
    ∀ (r : Registry σ), r.connections.entries.Perm (ofCalls calls).connections.entries → ∀ s : σ,
      r.connections.keys.Nodup ∧
      (∀ name c, (name, c) ∈ r.connections.entries ↔ lastAdded? calls name = some c) ∧
      ∃ results, Disconnects r.connections.entries results s (r.disconnectAll.from_ s).2 ∧
        ((r.disconnectAll.from_ s).1 = .ok () ↔ ∀ result ∈ results, result = .ok ()) ∧
        ∀ cause, (r.disconnectAll.from_ s).1 = .error cause → .error cause ∈ results := by
  refine ⟨default_eq_ok_iff calls, exists_default_iff calls, fun name => ⟨?_, fun h => ?_⟩,
    fun name h => ?_, ⟨names_ascending _, mem_names_ofCalls calls⟩, fun r h s =>
    ⟨r.connections.nodup, mem_entries_iff calls h, exists_disconnects r s⟩⟩
  · intro hok
    by_contra hnot
    rw [choose_unknown calls hnot] at hok
    cases hok
  · rw [choose_known calls h]
  · rw [ofCalls_concat, register, choose_unknown calls h]
    exact ⟨rfl, rfl⟩

/-- Two connections, a choice that fails and one that does not, and a connection that is replaced.
They are disconnected in another order than they were added in, and the first one fails. -/
theorem registry_kept_replaced :
    let on (name : String) : Connection (Script Unit) :=
      Script.connection "postgres" .postgres name (.ok none)
    let calls := [.add "a" (on "old"), .add "b" (on "b"), .choose "c", .choose "b",
      .add "a" (on "new")]
    let other : Registry (Script Unit) := ⟨.ofList [("b", on "b"), ("a", on "new")], none⟩
    let s := (Script.start ()).prepare "b" [.error (.connection .released)]
    let ended := other.disconnectAll.from_ s
    (ofCalls calls).default = .ok (on "b") ∧
      (ofCalls (calls ++ [.choose "c"])).chosen = some "b" ∧
        ("a" ∈ (ofCalls calls).names ∧ "c" ∉ (ofCalls calls).names) ∧
          ended.1 = .error (.connection .released) ∧
            ended.2.log.map (·.adapter) = ["b", "new"] ∧
              ∃ results, Disconnects other.connections.entries results s ended.2 := by
  intro on calls other s ended
  obtain ⟨hdefault, -, -, hunknown, ⟨-, hnames⟩, hends⟩ := registry_kept calls
  obtain ⟨-, hchosen⟩ := hunknown "c" (by decide)
  have hperm : other.connections.entries.Perm (ofCalls calls).connections.entries :=
    List.Perm.swap _ _ _
  obtain ⟨-, -, results, hresults, -⟩ := hends other hperm s
  refine ⟨(hdefault _).2 ⟨"b", rfl, rfl⟩, by rw [hchosen]; rfl, ⟨(hnames "a").2 (by decide),
    fun h => ?_⟩, rfl, rfl, results, hresults⟩
  exact absurd ((hnames "c").1 h) (by decide)

end Registry

end ActiveRow
