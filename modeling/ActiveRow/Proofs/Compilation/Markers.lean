import ActiveRow.Proofs.Compilation.Bindings

/-!
# Markers of raw fragments

A marker is a question mark of a raw fragment that stands outside single quotes. What a fragment is
written as is said here place by place: which characters are markers, and what stands where each
character stood. The scan of a fragment goes over it from left to right, so what it gives is said
of the rest of a text, which may begin inside quotes.

* `render_scan`: the scan replaces markers from the left, and copies all other characters.
* `scan_left`: the bindings that are left over are those beyond the number of markers.
* `finish_enclosed`: so a statement around a fragment is made exactly when no binding is left over.
-/

namespace ActiveRow

namespace Raw

/-- Whether a marker stands at this place of a text: a question mark outside quotes. Each quote
before it opens or closes, and the text begins inside quotes if `quoted` says so. -/
def isMarker (quoted : Bool) (cs : List Char) (i : Nat) : Bool :=
  cs[i]? == some '?' && quoted == decide ((cs.take i).count '\'' % 2 = 1)

/-- The number of markers before a place. -/
def markersBefore (quoted : Bool) (cs : List Char) (i : Nat) : Nat :=
  (List.range i).countP (isMarker quoted cs)

/-- What stands where a character stood: `mark k` for a marker behind `k` others, if it is among
the first `n`, else the character. -/
def replacement (mark : Nat → String) (n : Nat) (quoted : Bool) (cs : List Char)
    (e : Char × Nat) : String :=
  let k := markersBefore quoted cs e.2
  if isMarker quoted cs e.2 ∧ k < n then mark k else String.singleton e.1

/-- A text whose first `n` markers are replaced. -/
def replaced (mark : Nat → String) (n : Nat) (quoted : Bool) (cs : List Char) : String :=
  String.join (cs.zipIdx.map (replacement mark n quoted cs))

/-- The number of markers of a fragment. -/
def markers (r : Raw) : Nat := markersBefore false r.sql.toList r.sql.toList.length

/-- The fragment with its markers replaced, as far as there are bindings. -/
def written (mark : Nat → String) (r : Raw) : String :=
  replaced mark r.bindings.length false r.sql.toList

/-! ### One character further -/

section

variable (quoted : Bool) (c : Char) (cs : List Char)

/-- Whether the rest of a text begins inside quotes. -/
def quotedBehind (quoted : Bool) (c : Char) : Bool := if c = '\'' then !quoted else quoted

theorem isMarker_zero : isMarker quoted (c :: cs) 0 = (c == '?' && !quoted) := by
  cases quoted <;> simp [isMarker]

theorem isMarker_succ (i : Nat) :
    isMarker quoted (c :: cs) (i + 1) = isMarker (quotedBehind quoted c) cs i := by
  have hparity : (quoted == decide (((c :: cs).take (i + 1)).count '\'' % 2 = 1)) =
      (quotedBehind quoted c == decide ((cs.take i).count '\'' % 2 = 1)) := by
    rw [List.take_succ_cons, List.count_cons, quotedBehind]
    by_cases hc : c = '\''
    · subst hc
      simp only [beq_self_eq_true, if_true]
      rcases Nat.mod_two_eq_zero_or_one ((cs.take i).count '\'') with h | h
      · have h' : ((cs.take i).count '\'' + 1) % 2 = 1 := by omega
        cases quoted <;> simp [h, h']
      · have h' : ((cs.take i).count '\'' + 1) % 2 = 0 := by omega
        cases quoted <;> simp [h, h']
    · simp [hc]
  rw [isMarker, isMarker, List.getElem?_cons_succ, hparity]

theorem markersBefore_succ (i : Nat) : markersBefore quoted (c :: cs) (i + 1) =
    (if c = '?' ∧ quoted = false then 1 else 0) + markersBefore (quotedBehind quoted c) cs i := by
  have hrest : isMarker quoted (c :: cs) ∘ Nat.succ = isMarker (quotedBehind quoted c) cs :=
    funext (isMarker_succ quoted c cs)
  have hfirst : (isMarker quoted (c :: cs) 0 = true) ↔ (c = '?' ∧ quoted = false) := by
    rw [isMarker_zero]
    simp
  rw [markersBefore, List.range_succ_eq_map, List.countP_cons, List.countP_map, hrest,
    markersBefore, Nat.add_comm]
  simp only [hfirst]

/-- **One character of a replaced text.** Behind a marker, there is one marker less to replace, and
each of the others is one further. -/
theorem replaced_cons (mark : Nat → String) (n : Nat) : replaced mark n quoted (c :: cs) =
    if c = '?' ∧ quoted = false then
      (if 0 < n then mark 0 else "?") ++ replaced (fun k => mark (k + 1)) (n - 1) quoted cs
    else String.singleton c ++ replaced mark n (quotedBehind quoted c) cs := by
  have hindex : cs.zipIdx 1 = cs.zipIdx.map fun e => (e.1, e.2 + 1) := List.zipIdx_succ
  have hnone : markersBefore quoted (c :: cs) 0 = 0 := rfl
  rw [replaced, List.zipIdx_cons, hindex, List.map_cons, List.map_map, String.join_cons]
  by_cases hc : c = '?' ∧ quoted = false
  · obtain ⟨rfl, rfl⟩ := hc
    have hfirst : replacement mark n false ('?' :: cs) ('?', 0) =
        if 0 < n then mark 0 else "?" := by
      have hmarker : isMarker false ('?' :: cs) 0 = true := by rw [isMarker_zero]; rfl
      simp only [replacement, hnone, hmarker, true_and]
      rfl
    have hrest : ∀ e : Char × Nat, replacement mark n false ('?' :: cs) (e.1, e.2 + 1) =
        replacement (fun k => mark (k + 1)) (n - 1) false cs e := by
      intro e
      have hcount : markersBefore false ('?' :: cs) (e.2 + 1) = markersBefore false cs e.2 + 1 := by
        rw [markersBefore_succ, if_pos ⟨rfl, rfl⟩, Nat.add_comm]
        rfl
      have hless : markersBefore false cs e.2 + 1 < n ↔ markersBefore false cs e.2 < n - 1 := by
        omega
      simp only [replacement, hcount, hless, isMarker_succ]
      rfl
    rw [if_pos ⟨rfl, rfl⟩, hfirst, replaced]
    exact congrArg _ (congrArg String.join (List.map_congr_left fun e _ => hrest e))
  · have hfirst : replacement mark n quoted (c :: cs) (c, 0) = String.singleton c := by
      have hm : ¬ isMarker quoted (c :: cs) 0 = true := by
        rw [isMarker_zero]
        simpa using hc
      rw [replacement, if_neg fun h => hm h.1]
    have hrest : ∀ e : Char × Nat, replacement mark n quoted (c :: cs) (e.1, e.2 + 1) =
        replacement mark n (quotedBehind quoted c) cs e := by
      intro e
      have hcount : markersBefore quoted (c :: cs) (e.2 + 1) =
          markersBefore (quotedBehind quoted c) cs e.2 := by
        rw [markersBefore_succ, if_neg hc, Nat.zero_add]
      simp only [replacement, hcount, isMarker_succ]
    rw [if_neg hc, hfirst, replaced]
    exact congrArg _ (congrArg String.join (List.map_congr_left fun e _ => hrest e))

end

/-- Without bindings, a text stands as it is. -/
theorem replaced_zero (mark : Nat → String) (quoted : Bool) (cs : List Char) :
    replaced mark 0 quoted cs = String.ofList cs := by
  induction cs generalizing mark quoted with
  | nil => rfl
  | cons c cs ih =>
    have hcons : String.ofList (c :: cs) = String.singleton c ++ String.ofList cs := by
      rw [String.singleton_eq_ofList, ← String.ofList_append]
      rfl
    rw [replaced_cons, hcons]
    split
    · rename_i hc
      rw [hc.1, ih]
      rfl
    · rw [ih]

/-! ### Scanning -/

/-- A marker that finds a binding is a place. -/
theorem scan_marker (v : Value) (vs : List Value) (cs : List Char) :
    scan false (v :: vs) ('?' :: cs) =
      (.slot v :: (scan false vs cs).1, (scan false vs cs).2) := rfl

/-- Any other character is copied, and so is a marker once the bindings are used up. -/
theorem scan_text {quoted : Bool} {c : Char} {vs : List Value}
    (h : vs = [] ∨ ¬(c = '?' ∧ quoted = false)) (cs : List Char) :
    scan quoted vs (c :: cs) =
      (.text (String.singleton c) :: (scan (quotedBehind quoted c) vs cs).1,
        (scan (quotedBehind quoted c) vs cs).2) := by
  unfold quotedBehind
  by_cases hquote : c = '\''
  · simp only [scan, if_pos hquote]
  · cases vs with
    | nil => simp only [scan, if_neg hquote]
    | cons v vs =>
      have hmarker : ¬(c = '?' ∧ (!quoted) = true) := by simpa using h
      simp only [scan, if_neg hquote, if_neg hmarker]

/-- **What a scan gives.** The markers that find a binding are places, numbered on from `used`; all
other characters are as they were. -/
theorem render_scan (style : Placeholder) (cs : List Char) : ∀ (quoted : Bool) (vs : List Value)
    (used : Nat), Piece.render style used (scan quoted vs cs).1 =
      replaced (fun k => style.mark (used + k + 1)) vs.length quoted cs := by
  induction cs with
  | nil => intro quoted vs used; rfl
  | cons c cs ih =>
    intro quoted vs used
    rw [replaced_cons]
    by_cases hmarker : c = '?' ∧ quoted = false
    · obtain ⟨rfl, rfl⟩ := hmarker
      rw [if_pos ⟨rfl, rfl⟩]
      cases vs with
      | nil =>
        -- the bindings are used up: this marker and all behind it are text
        rw [scan_text (.inl rfl), Piece.render, ih, List.length_nil, replaced_zero, replaced_zero]
        rfl
      | cons v vs =>
        have hshift : (fun k => style.mark (used + 1 + k + 1)) =
            fun k => style.mark (used + (k + 1) + 1) := by
          funext k
          congr 1
          omega
        rw [scan_marker, Piece.render, ih, hshift]
        rfl
    · rw [scan_text (.inr hmarker), Piece.render, ih, if_neg hmarker]

/-- **What a scan leaves over** are the bindings beyond the number of markers. -/
theorem scan_left (cs : List Char) : ∀ (quoted : Bool) (vs : List Value),
    (scan quoted vs cs).2 = vs.drop (markersBefore quoted cs cs.length) := by
  induction cs with
  | nil => intro quoted vs; rfl
  | cons c cs ih =>
    intro quoted vs
    rw [List.length_cons, markersBefore_succ]
    by_cases hmarker : c = '?' ∧ quoted = false
    · obtain ⟨rfl, rfl⟩ := hmarker
      rw [if_pos ⟨rfl, rfl⟩, Nat.add_comm]
      cases vs with
      | nil => rw [scan_text (.inl rfl), ih, List.drop_nil, List.drop_nil]
      | cons v vs =>
        rw [scan_marker, ih]
        rfl
    · rw [scan_text (.inr hmarker), ih, if_neg hmarker, Nat.zero_add]

theorem firstFlaw?_scan (cs : List Char) : ∀ (quoted : Bool) (vs : List Value),
    Piece.firstFlaw? (scan quoted vs cs).1 = none := by
  induction cs with
  | nil => intro quoted vs; rfl
  | cons c cs ih =>
    intro quoted vs
    by_cases hmarker : c = '?' ∧ quoted = false
    · obtain ⟨rfl, rfl⟩ := hmarker
      cases vs with
      | nil =>
        rw [scan_text (.inl rfl)]
        exact ih _ _
      | cons v vs =>
        rw [scan_marker]
        exact ih _ _
    · rw [scan_text (.inr hmarker)]
      exact ih _ _

/-! ### The pieces of a fragment -/

/-- **When a fragment has no flaw.** Each of its bindings has to find a marker. -/
theorem pieces_eq {r : Raw} (h : r.bindings ≠ []) : r.pieces =
    if r.bindings.length ≤ r.markers then (scan false r.bindings r.sql.toList).1
    else (scan false r.bindings r.sql.toList).1 ++
      [.flaw (.markers r.sql r.bindings.length r.markers)] := by
  have hsome : r.bindings.isEmpty = false := by simpa using h
  have hleft : (scan false r.bindings r.sql.toList).2 = r.bindings.drop r.markers :=
    scan_left r.sql.toList false r.bindings
  simp only [pieces, hsome, Bool.false_eq_true, if_false, hleft]
  by_cases hle : r.bindings.length ≤ r.markers
  · have hempty : (r.bindings.drop r.markers).isEmpty = true := by
      simpa using hle
    rw [if_pos hempty, if_pos hle]
  · have hmore : ¬(r.bindings.drop r.markers).isEmpty = true := by
      simpa using hle
    have hfound : r.bindings.length - (r.bindings.drop r.markers).length = r.markers := by
      rw [List.length_drop]
      omega
    rw [if_neg hmore, if_neg hle, hfound]

theorem render_pieces (style : Placeholder) (used : Nat) (r : Raw) :
    Piece.render style used r.pieces = r.written fun k => style.mark (used + k + 1) := by
  by_cases hnone : r.bindings = []
  · have hwritten : r.written (fun k => style.mark (used + k + 1)) = r.sql := by
      rw [written, hnone, List.length_nil, replaced_zero, String.ofList_toList]
    rw [hwritten, pieces, hnone]
    exact String.append_empty
  · rw [pieces_eq hnone]
    split
    · exact render_scan style _ _ _ _
    · rw [Piece.render_append, render_scan]
      exact String.append_empty

theorem firstFlaw?_pieces (r : Raw) : Piece.firstFlaw? r.pieces =
    if r.bindings.length ≤ r.markers then none
    else some (.markers r.sql r.bindings.length r.markers) := by
  by_cases hnone : r.bindings = []
  · have hle : r.bindings.length ≤ r.markers := by simp [hnone]
    rw [if_pos hle, pieces, hnone]
    rfl
  · rw [pieces_eq hnone]
    split
    · exact firstFlaw?_scan _ _ _
    · rw [Piece.firstFlaw?_append, firstFlaw?_scan]
      rfl

theorem bindings_pieces {r : Raw} (h : r.bindings.length ≤ r.markers) :
    Piece.bindings r.pieces = r.bindings := by
  by_cases hnone : r.bindings = []
  · rw [pieces, hnone]
    rfl
  · have hleft : (scan false r.bindings r.sql.toList).2 = [] := by
      rw [scan_left]
      exact List.drop_of_length_le h
    have hall := bindings_scan r.sql.toList false r.bindings
    rw [pieces_eq hnone, if_pos h]
    rwa [hleft, List.append_nil] at hall

/-- The statement of a fragment between pieces: the marks of its bindings count on from those
before it, and those behind it count on from them. -/
def enclosed (style : Placeholder) (before after : List Piece) (r : Raw) : Statement :=
  let used := (Piece.bindings before).length
  ⟨Piece.render style 0 before ++ r.written (fun k => style.mark (used + k + 1)) ++
      Piece.render style (used + r.bindings.length) after,
    Piece.bindings before ++ r.bindings ++ Piece.bindings after⟩

/-- **A fragment in a statement** that has no flaw around it. The statement is made exactly when the
fragment has a marker for each of its bindings. -/
theorem finish_enclosed (style : Placeholder) {before after : List Piece}
    (hbefore : Piece.firstFlaw? before = none) (hafter : Piece.firstFlaw? after = none) (r : Raw) :
    Piece.finish style (before ++ r.pieces ++ after) =
      if r.bindings.length ≤ r.markers then .ok (r.enclosed style before after)
      else .error (.validation (.markers r.sql r.bindings.length r.markers)) := by
  have hflaw : Piece.firstFlaw? (before ++ r.pieces ++ after) =
      if r.bindings.length ≤ r.markers then none
      else some (.markers r.sql r.bindings.length r.markers) := by
    rw [Piece.firstFlaw?_append, Piece.firstFlaw?_append, hbefore, hafter, firstFlaw?_pieces]
    split <;> rfl
  split at hflaw
  · rename_i hle
    have hfront : Piece.bindings (before ++ r.pieces) = Piece.bindings before ++ r.bindings := by
      rw [Piece.bindings_append, bindings_pieces hle]
    rw [Piece.finish_of_sound style hflaw, Piece.render_append, Piece.render_append, hfront,
      Piece.bindings_append, hfront, render_pieces, List.length_append, Nat.zero_add,
      Nat.zero_add, if_pos hle]
    rfl
  · rename_i hle
    rw [Piece.finish, hflaw, if_neg hle]

end Raw

end ActiveRow
