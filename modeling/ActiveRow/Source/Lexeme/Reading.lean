import ActiveRow.Source.Literal

/-!
# Reading lexemes

Source text is read from the front: blanks and comments are skipped, comments that describe become
attributes, and each lexeme is as long as it can be. Comments between `/*` and `*/` nest.

* `lexemes_ofList`: a name by itself is one lexeme.
-/

namespace ActiveRow.Source

/-! ### Comments -/

/-- What follows a comment, inside which so many others are open. -/
def commentEnd : Nat → List Char → List Char
  | depth, '/' :: '*' :: rest => commentEnd (depth + 1) rest
  | depth, '*' :: '/' :: rest => if depth = 0 then rest else commentEnd (depth - 1) rest
  | depth, _ :: rest => commentEnd depth rest
  | _, [] => []

/-- The attribute that a describing comment stands for. -/
def description (isInner : Bool) (value : List Char) : List Lexeme :=
  .sign '#' false :: (if isInner then [.sign '!' false] else []) ++
    [.opens .square, .name "doc", .sign '=' false, .quoted (String.ofList value), .closes .square]

/-- The comment at the front, if there is one: what it stands for and what follows it. -/
def comment? : List Char → Option (List Lexeme × List Char)
  | '/' :: '/' :: rest =>
    let ts := match rest.takeWhile (· ≠ '\n') with
      | '!' :: value => description true value
      | '/' :: '/' :: _ => []
      | '/' :: value => description false value
      | _ => []
    some (ts, rest.dropWhile (· ≠ '\n'))
  | '/' :: '*' :: rest =>
    let behind := commentEnd 0 rest
    let value := rest.take (rest.length - behind.length - 2)
    let ts := match rest with
      | '!' :: _ => description true value.tail
      | '*' :: '*' :: _ | '*' :: '/' :: _ => []
      | '*' :: _ => description false value.tail
      | _ => []
    some (ts, behind)
  | _ => none

/-! ### Lexemes -/

def signChars : List Char := "~!@#$%^&*-=+|;:,<.>/?'".toList

def isSign (c : Char) : Bool := signChars.contains c

def startsSign (cs : List Char) : Bool := cs.head?.any isSign && (comment? cs).isNone

/-- What the front of the text stands for, and what follows it. -/
def front : List Char → List Lexeme × List Char
  | [] => ([], [])
  | c :: rest =>
    match comment? (c :: rest), literal? (c :: rest) with
    | some read, _ => read
    | none, some (literal, rest) => ([literal], rest)
    | none, none =>
      match c with
      | '(' => ([.opens .round], rest)
      | '[' => ([.opens .square], rest)
      | '\x7b' => ([.opens .curly], rest)
      | ')' => ([.closes .round], rest)
      | ']' => ([.closes .square], rest)
      | '\x7d' => ([.closes .curly], rest)
      | '\'' => ([.lifetime (before (c :: rest) (nameEnd rest))], nameEnd rest)
      | _ =>
        if isSign c then ([.sign c (startsSign rest)], rest)
        else if isNameStart c then
          ([.name (before (c :: rest) (nameEnd (c :: rest)))], nameEnd (c :: rest))
        else ([], rest)

/-- Reads on, at most so many times. -/
def lexemesFrom : Nat → List Char → List Lexeme
  | 0, _ | _, [] => []
  | n + 1, cs => (front cs).1 ++ lexemesFrom n (front cs).2

/-- The lexemes of source text. Each has a character, or more. -/
def lexemes (source : String) : List Lexeme := lexemesFrom source.toList.length source.toList

/-! ### Names by themselves -/

theorem dropWhile_eq_nil {p : Char → Bool} {cs : List Char} (h : ∀ c ∈ cs, p c) :
    cs.dropWhile p = [] := by
  induction cs with
  | nil => rfl
  | cons c cs ih =>
    obtain ⟨hc, h⟩ := List.forall_mem_cons.1 h
    simp [hc, ih h]

theorem nameEnd_eq_nil {cs : List Char} (h : ∀ c ∈ cs, isNameChar c) : nameEnd cs = [] := by
  unfold nameEnd
  split
  · exact absurd (h '#' (by simp)) (by decide)
  · exact dropWhile_eq_nil h

theorem isSign_eq_false {c : Char} (h : isNameStart c) : isSign c = false := by
  have signs : signChars.all (!isNameStart ·) = true := by decide
  cases hs : isSign c with
  | false => rfl
  | true =>
    have := List.all_eq_true.1 signs c (by simpa [isSign] using hs)
    simp [h] at this

theorem comment?_eq_none {c : Char} {cs : List Char} (h : isNameStart c) :
    comment? (c :: cs) = none := by
  have : c ≠ '/' := by rintro rfl; revert h; decide
  unfold comment?
  split <;> simp_all

theorem front_name {c : Char} {cs : List Char} (hc : isNameStart c) (h : ∀ c ∈ cs, isNameChar c) :
    front (c :: cs) = ([.name (String.ofList (c :: cs))], []) := by
  have ⟨hn, hd⟩ : isNameChar c ∧ c.isDigit = false := by simpa [isNameStart] using hc
  have hn : ∀ d ∈ c :: cs, isNameChar d := List.forall_mem_cons.2 ⟨hn, h⟩
  have hl : literal? (c :: cs) = none := literal?_eq_none hn (by simpa using hd)
  simp only [front, comment?_eq_none hc, hl]
  split
  all_goals first
    | exact absurd hc (by decide)
    | simp [isSign_eq_false hc, hc, nameEnd_eq_nil hn, before_nil]

theorem lexemesFrom_nil (n : Nat) : lexemesFrom n [] = [] := by
  cases n <;> rfl

theorem lexemes_ofList {c : Char} {cs : List Char} (hc : isNameStart c)
    (h : ∀ c ∈ cs, isNameChar c) :
    lexemes (String.ofList (c :: cs)) = [.name (String.ofList (c :: cs))] := by
  simp [lexemes, lexemesFrom, front_name hc h, lexemesFrom_nil]

end ActiveRow.Source
