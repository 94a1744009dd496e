import Mathlib.Data.List.Nodup

/-!
# Names in the order in which they are first seen

Names that may repeat, and each of them once, where it occurs for the first time. Reading the names
one by one, a name that was seen changes nothing, and a new one comes last.

* `FirstSeen.seen`, `FirstSeen.new`: the step for one more name.
-/

namespace ActiveRow

/-- Names where they are first seen: the same names, none twice, and in the order in which each
occurs for the first time. -/
structure FirstSeen (names columns : List String) : Prop where
  nodup : columns.Nodup
  mem_iff : ∀ n, n ∈ columns ↔ n ∈ names
  ordered : columns.Pairwise fun a b => names.idxOf a < names.idxOf b

namespace FirstSeen

variable {names columns : List String} {n : String}

theorem nil : FirstSeen [] [] := ⟨List.nodup_nil, fun _ => Iff.rfl, List.Pairwise.nil⟩

/-- Where the names that were seen stand does not change with another name behind them. -/
theorem ordered_concat (h : FirstSeen names columns) (n : String) :
    columns.Pairwise fun a b => (names ++ [n]).idxOf a < (names ++ [n]).idxOf b := by
  refine h.ordered.imp_of_mem fun {a b} ha hb hlt => ?_
  rwa [List.idxOf_append_of_mem ((h.mem_iff a).1 ha), List.idxOf_append_of_mem ((h.mem_iff b).1 hb)]

theorem seen (h : FirstSeen names columns) (hn : n ∈ columns) :
    FirstSeen (names ++ [n]) columns where
  nodup := h.nodup
  mem_iff := by
    intro k
    have hnames : n ∈ names := (h.mem_iff n).1 hn
    rw [h.mem_iff, List.mem_append, List.mem_singleton]
    exact ⟨Or.inl, fun hk => hk.elim id fun hk => hk ▸ hnames⟩
  ordered := h.ordered_concat n

theorem new (h : FirstSeen names columns) (hn : n ∉ columns) :
    FirstSeen (names ++ [n]) (columns ++ [n]) where
  nodup := List.nodup_append.2 ⟨h.nodup, List.nodup_singleton n, by
    intro a ha b hb hab
    obtain rfl := List.mem_singleton.1 hb
    exact hn (hab ▸ ha)⟩
  mem_iff := by
    intro k
    rw [List.mem_append, List.mem_append, h.mem_iff]
  ordered := by
    refine List.pairwise_append.2 ⟨h.ordered_concat n, List.pairwise_singleton _ _, ?_⟩
    intro a ha b hb
    obtain rfl := List.mem_singleton.1 hb
    have hseen : a ∈ names := (h.mem_iff a).1 ha
    have hunseen : b ∉ names := fun hb => hn ((h.mem_iff b).2 hb)
    have hlt : names.idxOf a < names.length := List.idxOf_lt_length_of_mem hseen
    rw [List.idxOf_append_of_mem hseen, List.idxOf_append_of_notMem hunseen]
    exact Nat.lt_add_right _ hlt

end FirstSeen

end ActiveRow
