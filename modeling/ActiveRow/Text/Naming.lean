import ActiveRow.Text.Alphabet
import ActiveRow.Text.Letter

/-!
# Names of tables

The words of a name, the name in snake case, and the plural of a word. A word ends at a character
that is no letter and no number, after a small letter that a capital follows, and before the last
capital of a run that a small letter follows. A number keeps the case of the letter before it.

* `words_flatten`: the words hold every letter and number of the name, in order.
* `words_ne_nil`: no word is empty.
-/

namespace ActiveRow.Text

/-- Whether a character of a name is no letter and no number. -/
def isSeparator (c : Char) : Bool := !isAlphanumeric c

/-- A word that has ended, unless nothing has been read of it. -/
def ended (word : List Char) : List (List Char) :=
  if word.isEmpty then [] else [word.reverse]

/-- The words of what is left of a name, from inside a word of which `word` has been read, last
character first, and whose last letter is of the case `last`. -/
def wordsFrom (last : Option LetterCase) (word : List Char) : List Char → List (List Char)
  | [] => ended word
  | c :: rest =>
    if isSeparator c then ended word ++ wordsFrom none [] rest
    else
      let here := (case? c).or last
      if here = some .small ∧ rest.head?.any isCapital then
        ended (c :: word) ++ wordsFrom none [] rest
      else if last = some .capital ∧ isCapital c ∧ rest.head?.any isSmall then
        ended word ++ wordsFrom none [c] rest
      else wordsFrom here (c :: word) rest

def words (name : List Char) : List (List Char) := wordsFrom none [] name

/-- A word in small letters, with the sigma that ends a word in its final form. -/
def smallWord : List Char → List Char
  | [] => []
  | ['Σ'] => ['ς']
  | c :: rest => small c ++ smallWord rest

def snake (name : String) : String :=
  String.intercalate "_" ((words name.toList).map fun w => String.ofList (smallWord w))

def isVowel (c : Char) : Bool := "aeiou".toList.contains c

/-- The English plural of a word, by its ending alone. -/
def plural (word : String) : String :=
  match word.toList.reverse with
  | 'y' :: stem =>
    if stem.head?.any isVowel then word ++ "s" else String.ofList stem.reverse ++ "ies"
  | 's' :: _ | 'x' :: _ | 'z' :: _ | 'h' :: 'c' :: _ | 'h' :: 's' :: _ => word ++ "es"
  | _ => word ++ "s"

/-! ### What the words hold -/

theorem ended_flatten (word : List Char) : (ended word).flatten = word.reverse := by
  cases word <;> simp [ended]

theorem wordsFrom_flatten (last : Option LetterCase) (word name : List Char) :
    (wordsFrom last word name).flatten = word.reverse ++ name.filter (!isSeparator ·) := by
  fun_induction wordsFrom last word name with
  | case1 => simp [ended_flatten]
  | case2 _ _ _ _ h ih => simp [ended_flatten, ih, h]
  | case3 _ _ _ _ h _ _ ih => simp [ended_flatten, ih, h]
  | case4 _ _ _ _ h _ _ _ ih => simp [ended_flatten, ih, h]
  | case5 _ _ _ _ h _ _ _ ih => simp [ih, h]

theorem words_flatten (name : List Char) :
    (words name).flatten = name.filter (!isSeparator ·) := by
  simp [words, wordsFrom_flatten]

theorem ne_nil_of_mem_ended {word w : List Char} (h : w ∈ ended word) : w ≠ [] := by
  cases word <;> simp_all [ended]

theorem wordsFrom_ne_nil {last : Option LetterCase} {word name w : List Char}
    (h : w ∈ wordsFrom last word name) : w ≠ [] := by
  fun_induction wordsFrom last word name with
  | case1 => exact ne_nil_of_mem_ended h
  | case2 _ _ _ _ _ ih => exact (List.mem_append.1 h).elim ne_nil_of_mem_ended ih
  | case3 _ _ _ _ _ _ _ ih => exact (List.mem_append.1 h).elim ne_nil_of_mem_ended ih
  | case4 _ _ _ _ _ _ _ _ ih => exact (List.mem_append.1 h).elim ne_nil_of_mem_ended ih
  | case5 _ _ _ _ _ _ _ _ ih => exact ih h

theorem words_ne_nil {name w : List Char} (h : w ∈ words name) : w ≠ [] := wordsFrom_ne_nil h

end ActiveRow.Text
