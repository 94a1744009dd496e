import Mathlib
import ActiveRow.Text.Blank

/-!
# Words between blanks

What stands between the blanks of a text, and whether a given word is among it, in either case of
its letters. A word that is mentioned in a text that was put together from parts is mentioned in one
of them, as long as each seam has a character that the word does not have.

* `mentions_append`: a seam of one character.
* `Mentions.of_marked`: characters that became words of their own kind.
* `mentions_of_occursIn`: a word that occurs between two spaces is mentioned.
-/

namespace ActiveRow.Text

/-- What stands between blanks, in order. -/
def spacedWords (cs : List Char) : List (List Char) := cs.splitOnP isBlank

/-- Whether a word, given in capitals, is among the words of a text. -/
def Mentions (word cs : List Char) : Prop := ∃ w ∈ spacedWords cs, w.map Char.toUpper = word

instance (word cs : List Char) : Decidable (Mentions word cs) :=
  inferInstanceAs (Decidable (∃ w ∈ spacedWords cs, w.map Char.toUpper = word))

variable {word a b cs cs' : List Char} {c : Char}

/-! ### Blanks -/

theorem spacedWords_append_blank (hc : isBlank c = true) (a b : List Char) :
    spacedWords (a ++ c :: b) = spacedWords a ++ spacedWords b :=
  List.splitOnP_append_cons a b hc

theorem spacedWords_cons_blank (hc : isBlank c = true) (cs : List Char) :
    spacedWords (c :: cs) = [] :: spacedWords cs :=
  spacedWords_append_blank hc [] cs

theorem spacedWords_cons (hc : isBlank c = false) (cs : List Char) :
    spacedWords (c :: cs) = (spacedWords cs).modifyHead (c :: ·) := by
  rw [spacedWords, List.splitOnP_cons_eq_if_modifyHead, hc]
  rfl

theorem exists_spacedWords_eq_cons (cs : List Char) :
    ∃ first rest, spacedWords cs = first :: rest :=
  List.exists_cons_of_ne_nil (List.splitOnP_ne_nil _ cs)

theorem mem_of_mem_spacedWords {w : List Char} (hw : w ∈ spacedWords cs) (hc : c ∈ w) : c ∈ cs := by
  induction cs generalizing w with
  | nil =>
    obtain rfl := List.mem_singleton.1 hw
    cases hc
  | cons d cs ih =>
    cases hd : isBlank d with
    | true =>
      rw [spacedWords_cons_blank hd] at hw
      rcases List.mem_cons.1 hw with rfl | hw
      · cases hc
      · exact List.mem_cons_of_mem _ (ih hw hc)
    | false =>
      obtain ⟨first, rest, hcs⟩ := exists_spacedWords_eq_cons cs
      rw [spacedWords_cons hd, hcs, List.modifyHead_cons] at hw
      rw [hcs] at ih
      rcases List.mem_cons.1 hw with rfl | hw
      · exact List.mem_cons.2 ((List.mem_cons.1 hc).imp_right (ih List.mem_cons_self))
      · exact List.mem_cons_of_mem _ (ih (List.mem_cons_of_mem _ hw) hc)

/-- Blanks around a text take away none of its words. -/
theorem mem_spacedWords_append_left (ha : ∀ c ∈ a, isBlank c = true) {w : List Char}
    (h : w ∈ spacedWords b) : w ∈ spacedWords (a ++ b) := by
  induction a with
  | nil => exact h
  | cons c a ih =>
    rw [List.cons_append, spacedWords_cons_blank (ha c List.mem_cons_self)]
    exact List.mem_cons_of_mem _ (ih fun c hc => ha c (List.mem_cons_of_mem _ hc))

theorem mem_spacedWords_append_right (hb : ∀ c ∈ b, isBlank c = true) {w : List Char}
    (h : w ∈ spacedWords a) : w ∈ spacedWords (a ++ b) := by
  cases b with
  | nil => rwa [List.append_nil]
  | cons c b =>
    rw [spacedWords_append_blank (hb c List.mem_cons_self)]
    exact List.mem_append_left _ h

theorem Mentions.of_trimStart (h : Mentions word (trimStart cs)) : Mentions word cs := by
  obtain ⟨w, hw, heq⟩ := h
  have hblank := List.all_eq_true.1 (List.all_takeWhile (l := cs) (p := isBlank))
  refine ⟨w, ?_, heq⟩
  rw [← List.takeWhile_append_dropWhile (p := isBlank) (l := cs)]
  exact mem_spacedWords_append_left hblank hw

theorem Mentions.of_trimChars (h : Mentions word (trimChars cs)) : Mentions word cs := by
  refine Mentions.of_trimStart ?_
  obtain ⟨w, hw, heq⟩ := h
  rw [trimChars] at hw
  rw [trimStart]
  generalize cs.dropWhile isBlank = ds at hw ⊢
  have hsplit : (ds.reverse.dropWhile isBlank).reverse ++ (ds.reverse.takeWhile isBlank).reverse =
      ds := by
    rw [← List.reverse_append, List.takeWhile_append_dropWhile, List.reverse_reverse]
  have hblank : ∀ c ∈ (ds.reverse.takeWhile isBlank).reverse, isBlank c = true := fun c hc =>
    List.all_eq_true.1 List.all_takeWhile c (List.mem_reverse.1 hc)
  refine ⟨w, ?_, heq⟩
  rw [← hsplit]
  exact mem_spacedWords_append_right hblank hw

/-! ### Letter case -/

theorem isBlank_of_isAlphanum (h : c.isAlphanum = true) : isBlank c = false := by
  simp only [Char.isAlphanum, Char.isAlpha, Char.isUpper, Char.isLower, Char.isDigit,
    Bool.or_eq_true, Bool.and_eq_true, decide_eq_true_eq, UInt32.le_iff_toNat_le,
    UInt32.reduceToNat, Char.reduceVal] at h
  have hc : c.val.toNat = c.toNat := rfl
  simp only [isBlank, Bool.or_eq_false_iff, Bool.and_eq_false_iff, decide_eq_false_iff_not,
    beq_eq_false_iff_ne]
  omega

theorem isBlank_toUpper (c : Char) : isBlank c.toUpper = isBlank c := by
  by_cases hlower : c.isLower = true
  · rw [isBlank_of_isAlphanum (by simp [Char.isAlphanum, Char.isAlpha, hlower]),
      isBlank_of_isAlphanum (by simp [Char.isAlphanum, Char.isAlpha, hlower])]
  · rw [Char.toUpper_eq_of_not_isLower hlower]

theorem spacedWords_map_toUpper (cs : List Char) :
    spacedWords (cs.map Char.toUpper) = (spacedWords cs).map (List.map Char.toUpper) := by
  induction cs with
  | nil => rfl
  | cons c cs ih =>
    rw [List.map_cons]
    cases hc : isBlank c with
    | true =>
      rw [spacedWords_cons_blank ((isBlank_toUpper c).trans hc), spacedWords_cons_blank hc, ih]
      rfl
    | false =>
      obtain ⟨first, rest, hcs⟩ := exists_spacedWords_eq_cons cs
      rw [spacedWords_cons ((isBlank_toUpper c).trans hc), spacedWords_cons hc, ih, hcs]
      rfl

theorem mentions_map_toUpper : Mentions word (cs.map Char.toUpper) ↔ Mentions word cs := by
  have hupper (w : List Char) : (w.map Char.toUpper).map Char.toUpper = w.map Char.toUpper := by
    simp
  simp only [Mentions, spacedWords_map_toUpper, List.mem_map]
  constructor
  · rintro ⟨_, ⟨w, hw, rfl⟩, heq⟩
    exact ⟨w, hw, (hupper w).symm.trans heq⟩
  · rintro ⟨w, hw, heq⟩
    exact ⟨_, ⟨w, hw, rfl⟩, (hupper w).trans heq⟩

/-! ### Marks -/

/-- A text in which characters became marks without blanks, each of which has the character `m`. -/
inductive Marked (m : Char) : List Char → List Char → Prop where
  | nil : Marked m [] []
  | keep (c : Char) {cs cs' : List Char} (h : Marked m cs cs') : Marked m (c :: cs) (c :: cs')
  | mark (c : Char) {mark : List Char} (hblank : ∀ d ∈ mark, isBlank d = false) (hm : m ∈ mark)
      {cs cs' : List Char} (h : Marked m cs cs') : Marked m (c :: cs) (mark ++ cs')

theorem Marked.refl (m : Char) (cs : List Char) : Marked m cs cs := by
  induction cs with
  | nil => exact .nil
  | cons c cs ih => exact .keep c ih

theorem Marked.append_left {m : Char} (h : Marked m cs cs') (a : List Char) :
    Marked m (a ++ cs) (a ++ cs') := by
  induction a with
  | nil => exact h
  | cons c a ih => exact .keep c ih

theorem spacedWords_append_of_notBlank (ha : ∀ c ∈ a, isBlank c = false) (cs : List Char) :
    spacedWords (a ++ cs) = (spacedWords cs).modifyHead (a ++ ·) := by
  induction a with
  | nil => exact (congrFun List.modifyHead_id (spacedWords cs)).symm
  | cons c a ih =>
    rw [List.cons_append, spacedWords_cons (ha c List.mem_cons_self),
      ih fun d hd => ha d (List.mem_cons_of_mem _ hd), List.modifyHead_modifyHead]
    rfl

/-- **A word without a mark** was there before. The first word is followed on its own, since it may
grow to the left. -/
theorem Marked.exists_spacedWords {m : Char} (h : Marked m cs cs') : ∃ first rest first' rest',
    spacedWords cs = first :: rest ∧ spacedWords cs' = first' :: rest' ∧
      (first' = first ∨ m ∈ first') ∧
      ∀ w ∈ rest', w ∈ rest ∨ m ∈ w := by
  induction h with
  | nil => exact ⟨[], [], [], [], rfl, rfl, .inl rfl, nofun⟩
  | @keep c cs cs' _ ih =>
    obtain ⟨first, rest, first', rest', hcs, hcs', hfirst, hrest⟩ := ih
    cases hc : isBlank c with
    | true =>
      refine ⟨[], first :: rest, [], first' :: rest', by rw [spacedWords_cons_blank hc, hcs],
        by rw [spacedWords_cons_blank hc, hcs'], .inl rfl, fun w hw => ?_⟩
      rcases List.mem_cons.1 hw with heq | hw
      · subst heq
        exact hfirst.imp_left fun (hsame : w = first) => hsame ▸ List.mem_cons_self
      · exact (hrest w hw).imp_left (List.mem_cons_of_mem _)
    | false =>
      refine ⟨c :: first, rest, c :: first', rest', by rw [spacedWords_cons hc, hcs]; rfl,
        by rw [spacedWords_cons hc, hcs']; rfl, ?_, hrest⟩
      exact hfirst.imp (congrArg _) (List.mem_cons_of_mem _)
  | @mark c mark hblank hm cs cs' _ ih =>
    obtain ⟨first, rest, first', rest', hcs, hcs', -, hrest⟩ := ih
    have hmarked : spacedWords (mark ++ cs') = (mark ++ first') :: rest' := by
      rw [spacedWords_append_of_notBlank hblank, hcs']
      rfl
    have hbefore : ∃ first₀ rest₀,
        spacedWords (c :: cs) = first₀ :: rest₀ ∧ ∀ w ∈ rest, w ∈ rest₀ := by
      cases hc : isBlank c with
      | true =>
        exact ⟨[], first :: rest, by rw [spacedWords_cons_blank hc, hcs], fun w hw =>
          List.mem_cons_of_mem _ hw⟩
      | false => exact ⟨c :: first, rest, by rw [spacedWords_cons hc, hcs]; rfl, fun w hw => hw⟩
    obtain ⟨first₀, rest₀, h₀, hrest₀⟩ := hbefore
    exact ⟨first₀, rest₀, _, rest', h₀, hmarked, .inr (List.mem_append_left _ hm), fun w hw =>
      (hrest w hw).imp_left (hrest₀ w)⟩

theorem Mentions.of_marked {m : Char} (hm : m.toUpper ∉ word) (h : Marked m cs cs')
    (hword : Mentions word cs') : Mentions word cs := by
  obtain ⟨w, hw, rfl⟩ := hword
  have hfree : m ∉ w := fun hmem => hm (List.mem_map_of_mem hmem)
  obtain ⟨first, rest, first', rest', hcs, hcs', hfirst, hrest⟩ := h.exists_spacedWords
  refine ⟨w, ?_, rfl⟩
  rw [hcs]
  rw [hcs'] at hw
  rcases List.mem_cons.1 hw with heq | hw
  · have hsame : w = first := heq.trans (hfirst.resolve_right (heq ▸ hfree))
    exact hsame ▸ List.mem_cons_self
  · exact List.mem_cons_of_mem _ ((hrest w hw).resolve_right hfree)

/-! ### Seams -/

/-- **At a seam** that the word does not have, a text falls apart into two, one of which mentions
the word if the whole does. -/
theorem mentions_append (hc : c.toUpper ∉ word) (h : Mentions word (a ++ c :: b)) :
    Mentions word a ∨ Mentions word b := by
  have hspace : Mentions word (a ++ ' ' :: b) := by
    cases hblank : isBlank c with
    | true =>
      rw [Mentions, spacedWords_append_blank hblank] at h
      rwa [Mentions, spacedWords_append_blank rfl]
    | false =>
      have hmark : ∀ d ∈ [c], isBlank d = false := by simpa using hblank
      have hglued : Marked c (a ++ ' ' :: b) (a ++ ([c] ++ b)) :=
        (Marked.mark ' ' hmark (List.mem_singleton_self c) (.refl c b)).append_left a
      exact h.of_marked hc hglued
  obtain ⟨w, hw, heq⟩ := hspace
  rw [spacedWords_append_blank rfl] at hw
  rcases List.mem_append.1 hw with hw | hw
  · exact .inl ⟨w, hw, heq⟩
  · exact .inr ⟨w, hw, heq⟩

/-- Whether a character may stand at a seam: the word does not have it. -/
def IsSeam (word : List Char) (c : Char) : Prop := c.toUpper ∉ word

instance (word : List Char) (c : Char) : Decidable (IsSeam word c) :=
  inferInstanceAs (Decidable (c.toUpper ∉ word))

/-- Whether a text lacks a letter of the word. -/
def Lacks (word cs : List Char) : Prop := ∃ x ∈ word, ∀ c ∈ cs, c.toUpper ≠ x

instance (word cs : List Char) : Decidable (Lacks word cs) :=
  decidable_of_iff (word.any fun x => cs.all fun c => c.toUpper != x) (by simp [Lacks])

theorem Lacks.not_mentions (h : Lacks word cs) : ¬Mentions word cs := by
  rintro ⟨w, hw, rfl⟩
  obtain ⟨x, hx, hlacks⟩ := h
  obtain ⟨c, hc, rfl⟩ := List.mem_map.1 hx
  exact hlacks c (mem_of_mem_spacedWords hw hc) rfl

theorem Lacks.mono (h : Lacks word cs) (hsub : cs' ⊆ cs) : Lacks word cs' := by
  obtain ⟨x, hx, hlacks⟩ := h
  exact ⟨x, hx, fun c hc => hlacks c (hsub hc)⟩

/-- What stands in front of a seam and lacks a letter of the word can be left out. -/
theorem mentions_append_left {s : List Char} (hlast : ∀ c ∈ s.getLast?, IsSeam word c)
    (hlacks : Lacks word s) (h : Mentions word (s ++ b)) : Mentions word b := by
  cases s using List.reverseRecOn with
  | nil => exact h
  | append_singleton s c =>
    have hs : Lacks word s := hlacks.mono (List.subset_append_left s [c])
    rw [List.append_assoc, List.singleton_append] at h
    exact (mentions_append (hlast c (by simp)) h).resolve_left hs.not_mentions

theorem mentions_append_right {s : List Char} (hfirst : ∀ c ∈ s.head?, IsSeam word c)
    (hlacks : Lacks word s) (h : Mentions word (a ++ s)) : Mentions word a := by
  cases s with
  | nil => rwa [List.append_nil] at h
  | cons c s =>
    have hs : Lacks word s := hlacks.mono (List.subset_cons_self c s)
    exact (mentions_append (hfirst c rfl) h).resolve_right hs.not_mentions

theorem mentions_append_between {s : List Char} (hne : s ≠ [])
    (hfirst : ∀ c ∈ s.head?, IsSeam word c) (hlast : ∀ c ∈ s.getLast?, IsSeam word c)
    (hlacks : Lacks word s) (h : Mentions word (a ++ (s ++ b))) :
    Mentions word a ∨ Mentions word b := by
  obtain ⟨c, s, rfl⟩ := List.exists_cons_of_ne_nil hne
  have hs : Lacks word s := hlacks.mono (List.subset_cons_self c s)
  refine (mentions_append (hfirst c rfl) h).imp_right (mentions_append_left (fun d hd => ?_) hs)
  cases s with
  | nil => cases hd
  | cons x s => exact hlast d hd

/-! ### Words that occur between spaces -/

theorem occursIn_iff (needle hay : List Char) : occursIn needle hay = true ↔ needle <:+: hay := by
  induction hay with
  | nil => rw [occursIn, List.isEmpty_iff, List.infix_nil]
  | cons c hay ih =>
    rw [occursIn, Bool.or_eq_true, ih, List.isPrefixOf_iff_prefix, List.infix_cons_iff]

/-- A word that occurs between spaces is mentioned. -/
theorem mentions_of_occursIn (hword : word.any isBlank = false)
    (hupper : word.map Char.toUpper = word) (h : occursIn (' ' :: word ++ [' ']) cs = true) :
    Mentions word cs := by
  obtain ⟨before, after, rfl⟩ := (occursIn_iff _ _).1 h
  have hshape : before ++ (' ' :: word ++ [' ']) ++ after =
      before ++ ' ' :: (word ++ ' ' :: after) := by simp
  have hself : spacedWords word = [word] :=
    List.splitOnP_eq_singleton fun c hc => Bool.eq_false_iff.2 (List.any_eq_false.1 hword c hc)
  refine ⟨word, ?_, hupper⟩
  rw [hshape, spacedWords_append_blank rfl, spacedWords_append_blank rfl, hself]
  simp

end ActiveRow.Text
