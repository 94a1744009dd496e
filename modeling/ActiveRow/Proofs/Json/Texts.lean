import ActiveRow.Proofs.Json.Formed

/-!
# Documents of texts

A text may be the document of a text: that text in quotes, with some of its characters escaped. It
is then the longer one, since no character has an escape shorter than itself. So no text is the
document of itself, and reading what was read comes to an end.

* `length_stringBody`: what is read between quotes, by induction on the reader.
* `length_lt_of_ofText`: the text of a document is longer than the text in it.
-/

namespace ActiveRow.Json

/-- **Characters are not longer than their escapes.** -/
theorem length_stringBody {acc cs rest : List Char} {s : String}
    (h : stringBody acc cs = some (s, rest)) :
    s.length + rest.length + 1 ≤ acc.length + cs.length := by
  fun_induction stringBody acc cs
  case case2 acc behind =>
    -- the closing quote
    cases h
    rw [String.length_ofList, List.length_reverse, List.length_cons]
    omega
  case case6 ih | case9 ih | case11 ih | case13 ih =>
    -- one more character, which took one or more to write
    have hbehind := ih h
    simp only [List.length_cons] at hbehind ⊢
    omega
  all_goals cases h

theorem length_skipSpace (cs : List Char) : (skipSpace cs).length ≤ cs.length :=
  (List.dropWhile_sublist _).length_le

/-! ### Texts among documents -/

/-- The document is no text. -/
def IsOther : Json → Prop
  | string _ => False
  | _ => True

theorem IsNumber.isOther : ∀ j : Json, j.IsNumber → j.IsOther
  | integer _, _ | float _, _ => trivial

theorem gives_items_other : ∀ (fuel depth : Nat) (acc : List Json) (cs : List Char),
    Gives IsOther (items? fuel depth acc cs)
  | 0, _, _, _ => gives_none
  | fuel + 1, depth, acc, cs => by
    unfold items?
    cases value? fuel depth cs with
    | none => exact gives_none
    | some e =>
      dsimp only
      split
      · exact gives_items_other fuel depth _ _
      · exact gives_some (j := array _) trivial _
      · exact gives_none

theorem gives_fields_other : ∀ (fuel depth : Nat) (acc : List (String × Json)) (cs : List Char),
    Gives IsOther (fields? fuel depth acc cs)
  | 0, _, _, _ => gives_none
  | fuel + 1, depth, acc, cs => by
    unfold fields?
    split
    · split
      · exact gives_none
      · split
        · split
          · exact gives_none
          · split
            · exact gives_fields_other fuel depth _ _
            · exact gives_some (j := object _) trivial _
            · exact gives_none
        · exact gives_none
    · exact gives_none

/-- A text is read between quotes, which are two characters more. -/
theorem length_of_value {fuel depth : Nat} {cs rest : List Char} {s : String}
    (h : value? fuel depth cs = some (string s, rest)) : s.length + 1 < cs.length := by
  cases fuel with
  | zero => cases h
  | succ fuel =>
    -- whatever does not start with a quote is read as a document that is no text
    have hother : ∀ {o : Option (Json × List Char)}, Gives IsOther o → o ≠ some (string s, rest) :=
      fun ho heq => ho _ _ heq
    have hspace := length_skipSpace cs
    unfold value? at h
    split at h
    · exact absurd h (hother (gives_map _ fun _ => trivial))
    · exact absurd h (hother (gives_map _ fun _ => trivial))
    · exact absurd h (hother (gives_map _ fun _ => trivial))
    · rename_i behind hquote
      obtain ⟨⟨s', rest'⟩, hbody, hs⟩ := Option.map_eq_some_iff.1 h
      cases hs
      have hlength := length_stringBody hbody
      rw [hquote, List.length_cons] at hspace
      rw [List.length_nil] at hlength
      omega
    · refine absurd h (hother ?_)
      split
      · exact gives_none
      · exact gives_some (j := array []) trivial _
      · exact gives_items_other fuel _ _ _
    · refine absurd h (hother ?_)
      split
      · exact gives_none
      · exact gives_some (j := object []) trivial _
      · exact gives_fields_other fuel _ _ _
    · exact absurd h (hother ((ofDigits_isNumber.gives_number _).mono IsNumber.isOther))

/-- **The text of a document is longer than the text in it.** -/
theorem length_lt_of_ofText {s t : String} (h : ofText? s = some (string t)) :
    t.length < s.length := by
  unfold ofText? at h
  dsimp only at h
  split at h
  · rename_i j rest hv
    split at h
    · cases h
      have hlength := length_of_value hv
      rw [String.length_toList] at hlength
      omega
    · cases h
  · cases h

end ActiveRow.Json
