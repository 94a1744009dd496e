import ActiveRow.Text.Naming

/-!
# Plurals

The plural of a word goes by its ending: a y without a vowel before it gives way to other letters,
behind a hissing sound there is an e more, and behind all else only an s is added.

* `plural_eq`: the plural, by the three kinds of ending.
* `plural_eq_append_s_iff`: which plurals are the word with an s.
-/

namespace ActiveRow.Text

/-- A word ends in a y without a vowel before it. -/
def EndsInY (word : String) : Prop :=
  ['y'] <:+ word.toList ∧ ∀ v ∈ "aeiou".toList, ¬[v, 'y'] <:+ word.toList

/-- A word ends in a hissing sound. -/
def EndsInHiss (word : String) : Prop :=
  ∃ sound ∈ ["s", "x", "z", "ch", "sh"], sound.toList <:+ word.toList

/-- A word that does not end like most, so that its plural takes more than an s. -/
def Irregular (word : String) : Prop := EndsInY word ∨ EndsInHiss word

instance (word : String) : Decidable (EndsInY word) := inferInstanceAs (Decidable (_ ∧ _))

instance (word : String) : Decidable (EndsInHiss word) :=
  inferInstanceAs (Decidable (∃ sound ∈ _, _))

instance (word : String) : Decidable (Irregular word) := inferInstanceAs (Decidable (_ ∨ _))

variable {word : String}

/-- A word read from its end, where an ending of it stands in reverse. -/
theorem reverse_of_suffix {ending stem : List Char} (h : stem ++ ending = word.toList) :
    word.toList.reverse = ending.reverse ++ stem.reverse := by
  rw [← h, List.reverse_append]

theorem suffix_of_reverse {ending stem : List Char}
    (h : word.toList.reverse = ending.reverse ++ stem) : ending <:+ word.toList := by
  rw [← List.reverse_prefix, h]
  exact List.prefix_append _ _

theorem plural_of_endsInY (h : EndsInY word) :
    plural word = String.ofList word.toList.dropLast ++ "ies" := by
  obtain ⟨⟨stem, hstem⟩, hvowel⟩ := h
  have hrev : word.toList.reverse = 'y' :: stem.reverse := reverse_of_suffix hstem
  have hdrop : word.toList.dropLast = stem := by
    rw [← hstem, List.dropLast_concat]
  have hhead : stem.reverse.head?.any isVowel = false := by
    cases hlast : stem.reverse with
    | nil => rfl
    | cons v rest =>
      rw [hlast] at hrev
      have hends : [v, 'y'] <:+ word.toList := suffix_of_reverse hrev
      rw [List.head?_cons, Option.any_some, isVowel, Bool.eq_false_iff, ne_eq,
        List.contains_iff_mem]
      exact fun hv => hvowel v hv hends
  rw [plural, hrev, hdrop]
  simp only [hhead, Bool.false_eq_true, if_false, List.reverse_reverse]

theorem plural_of_endsInHiss (h : EndsInHiss word) : plural word = word ++ "es" := by
  obtain ⟨sound, hsound, stem, hstem⟩ := h
  have hrev := reverse_of_suffix hstem
  simp only [List.mem_cons, List.not_mem_nil, or_false] at hsound
  rcases hsound with rfl | rfl | rfl | rfl | rfl <;> rw [plural, hrev] <;> rfl

theorem plural_of_regular (h : ¬Irregular word) : plural word = word ++ "s" := by
  have hhiss : ∀ sound ∈ ["s", "x", "z", "ch", "sh"], ∀ stem,
      word.toList.reverse ≠ sound.toList.reverse ++ stem :=
    fun sound hsound stem hrev => h (.inr ⟨sound, hsound, suffix_of_reverse hrev⟩)
  unfold plural
  split
  · next stem hrev =>
    cases hvowel : stem.head?.any isVowel with
    | true => rfl
    | false =>
      refine absurd (.inl ⟨suffix_of_reverse hrev, fun v hv hends => ?_⟩) h
      obtain ⟨rest, hrest⟩ := hends
      have hstem : 'y' :: stem = 'y' :: v :: rest.reverse :=
        hrev.symm.trans (reverse_of_suffix hrest)
      rw [List.tail_eq_of_cons_eq hstem, List.head?_cons, Option.any_some, isVowel,
        List.contains_iff_mem.2 hv] at hvowel
      exact Bool.noConfusion hvowel
  · next stem hrev => exact absurd hrev (hhiss "s" (by decide) stem)
  · next stem hrev => exact absurd hrev (hhiss "x" (by decide) stem)
  · next stem hrev => exact absurd hrev (hhiss "z" (by decide) stem)
  · next stem hrev => exact absurd hrev (hhiss "ch" (by decide) stem)
  · next stem hrev => exact absurd hrev (hhiss "sh" (by decide) stem)
  · rfl

/-- **The plural of a word**, by its ending. -/
theorem plural_eq (word : String) : plural word =
    if EndsInY word then String.ofList word.toList.dropLast ++ "ies"
    else if EndsInHiss word then word ++ "es"
    else word ++ "s" := by
  by_cases hy : EndsInY word
  · rw [if_pos hy, plural_of_endsInY hy]
  · rw [if_neg hy]
    by_cases hhiss : EndsInHiss word
    · rw [if_pos hhiss, plural_of_endsInHiss hhiss]
    · rw [if_neg hhiss, plural_of_regular (not_or.2 ⟨hy, hhiss⟩)]

example : ["user", "category", "day", "address", "blog_post"].map plural =
    ["users", "categories", "days", "addresses", "blog_posts"] := by decide +kernel

/-- **Which plurals are the word with an s**: the others are longer by one letter. -/
theorem plural_eq_append_s_iff : plural word = word ++ "s" ↔ ¬Irregular word := by
  refine ⟨fun h hirregular => ?_, plural_of_regular⟩
  have hlength : (plural word).length = word.length + 1 := by
    rw [h, String.length_append]
    rfl
  rcases hirregular with hy | hhiss
  · rw [plural_of_endsInY hy, String.length_append, String.length_ofList, List.length_dropLast,
      String.length_toList] at hlength
    have hpos : 0 < word.length := by
      rw [← String.length_toList]
      exact hy.1.length_le
    have hies : "ies".length = 3 := rfl
    omega
  · rw [plural_of_endsInHiss hhiss, String.length_append] at hlength
    have hes : "es".length = 2 := rfl
    omega

end ActiveRow.Text
