import ActiveRow.Text.Blank
import ActiveRow.Text.Hex
import ActiveRow.Source.Lexeme

/-!
# Literals in source text

Quoted texts, in which a backslash begins what is not meant as it stands; raw texts, which end at a
quote and as many number signs as they begin with; single characters in single quotes; whole and
decimal numbers. A name may end every literal.

* `quotedEnd?_plain`: a text without quotes and backslashes is its own value.
* `literal?_eq_none`: a name is no literal.
-/

namespace ActiveRow.Source

/-! ### Characters of names -/

/-- Blanks, among them the marks of a direction. -/
def isGap (c : Char) : Bool := Text.isBlank c || c = '\u200e' || c = '\u200f'

def isNameChar (c : Char) : Bool := c.isAlphanum || c = '_' || (128 ≤ c.toNat && !isGap c)

def isNameStart (c : Char) : Bool := isNameChar c && !c.isDigit

/-- What follows the name at the front. The number sign of a raw name belongs to it. -/
def nameEnd : List Char → List Char
  | 'r' :: '#' :: rest =>
    if rest.head?.any isNameStart then rest.dropWhile isNameChar else '#' :: rest
  | cs => cs.dropWhile isNameChar

/-- What follows the name that ends a literal, if there is one. -/
def suffixEnd (cs : List Char) : List Char :=
  if cs.head?.any isNameStart then cs.dropWhile isNameChar else cs

/-! ### Quoted texts -/

/-- Where in a quoted text a character stands. -/
inductive Quoting where
  | plain
  /-- Behind a backslash. -/
  | escaped
  /-- Behind the end of a line that a backslash stands before. -/
  | folded
  /-- In a character that is given by two digits, of which the first may have been read. -/
  | byte (first : Option Nat)
  /-- In a character that is given by its number. -/
  | code (n : Nat)

namespace Quoting

/-- The place behind a character, and the characters that it adds to the text; nothing behind the
quote that ends it. The end of a line is one character. -/
def plainStep (c : Char) : Option (Quoting × List Char) :=
  if c = '"' then none
  else if c = '\\' then some (escaped, [])
  else if c = '\r' then some (plain, [])
  else some (plain, [c])

def escapedStep (c : Char) : Quoting × List Char :=
  match c with
  | 'n' => (plain, ['\n'])
  | 'r' => (plain, ['\r'])
  | 't' => (plain, ['\t'])
  | '0' => (plain, ['\x00'])
  | 'x' => (byte none, [])
  | 'u' => (code 0, [])
  | '\n' | '\r' => (folded, [])
  | c => (plain, [c])

def step : Quoting → Char → Option (Quoting × List Char)
  | plain, c => plainStep c
  | escaped, c => some (escapedStep c)
  | folded, c => if [' ', '\t', '\n', '\r'].contains c then some (folded, []) else plainStep c
  | byte none, c => some (byte (some ((Hex.value? c).getD 0)), [])
  | byte (some n), c => some (plain, [Char.ofNat (n * 16 + (Hex.value? c).getD 0)])
  | code n, c =>
    if c = '\x7d' then some (plain, [Char.ofNat n])
    else some (code ((Hex.value? c).elim n (n * 16 + ·)), [])

end Quoting

/-- The value of a text and what follows its quote. -/
def quotedEnd? : Quoting → List Char → Option (List Char × List Char)
  | _, [] => none
  | q, c :: rest =>
    match q.step c with
    | none => some ([], rest)
    | some (q, cs) => (quotedEnd? q rest).map fun (value, rest) => (cs ++ value, rest)

theorem quotedEnd?_plain {cs rest : List Char} (h : ∀ c ∈ cs, c ≠ '"' ∧ c ≠ '\\' ∧ c ≠ '\r') :
    quotedEnd? .plain (cs ++ '"' :: rest) = some (cs, rest) := by
  induction cs with
  | nil => rfl
  | cons c cs ih =>
    obtain ⟨⟨h₁, h₂, h₃⟩, h⟩ := List.forall_mem_cons.1 h
    simp [quotedEnd?, Quoting.step, Quoting.plainStep, h₁, h₂, h₃, ih h]

/-- The value of a raw text and what follows it. -/
def rawEnd? (hashes : Nat) : List Char → Option (List Char × List Char)
  | [] => none
  | c :: rest =>
    if c = '"' ∧ rest.take hashes = List.replicate hashes '#' then some ([], rest.drop hashes)
    else (rawEnd? hashes rest).map fun (value, rest) => (c :: value, rest)

/-- What follows a single character and its closing quote. -/
def characterEnd? : List Char → Option (List Char)
  | '\\' :: _ :: rest =>
    match rest.dropWhile (· ≠ '\'') with
    | _ :: rest => some rest
    | [] => none
  | _ :: '\'' :: rest => some rest
  | _ => none

/-! ### Numbers -/

def isDigitChar (c : Char) : Bool := c.isDigit || c = '_'

/-- What follows an exponent, which has a digit. -/
def exponentEnd? : List Char → Option (List Char)
  | c :: rest =>
    if c = 'e' ∨ c = 'E' then
      let rest := rest.dropWhile (· = '_')
      let digits := if rest.head?.any fun c => c = '+' || c = '-' then rest.tail else rest
      if (digits.takeWhile isDigitChar).any Char.isDigit then some (digits.dropWhile isDigitChar)
      else none
    else none
  | [] => none

/-- What follows a number with a point or an exponent. A point that another point or a name follows
does not belong to the number. -/
def decimalEnd? (cs : List Char) : Option (List Char) :=
  match cs.dropWhile isDigitChar with
  | '.' :: rest =>
    if rest.head?.any fun c => c = '.' || isNameStart c then none
    else
      let rest := rest.dropWhile isDigitChar
      some ((exponentEnd? rest).getD rest)
  | rest => exponentEnd? rest

def numberEnd (cs : List Char) : List Char := ((decimalEnd? cs).getD cs).dropWhile isNameChar

/-! ### Literals -/

/-- What is left out before `rest`. -/
def before (cs rest : List Char) : String := String.ofList (cs.take (cs.length - rest.length))

/-- Letters that may stand before a quote. -/
def quoteMarks : List (List Char) := [[], ['r'], ['b'], ['c'], ['b', 'r'], ['c', 'r']]

/-- The literal at the front, if there is one, and what follows it. -/
def literal? (cs : List Char) : Option (Lexeme × List Char) :=
  let mark := cs.takeWhile ['b', 'c', 'r'].contains
  let isRaw := mark.contains 'r'
  let hashes := if isRaw then (cs.drop mark.length).takeWhile (· = '#') else []
  if cs.head?.any Char.isDigit then some (.number (before cs (numberEnd cs)), numberEnd cs)
  else if !quoteMarks.contains mark then none
  else
    match cs.drop (mark.length + hashes.length) with
    | '"' :: inner =>
      let text := if isRaw then rawEnd? hashes.length inner else quotedEnd? .plain inner
      text.map fun (value, rest) =>
        let rest := suffixEnd rest
        if mark = [] ∨ mark = ['r'] then (.text (String.ofList value) (before cs rest), rest)
        else (.literal (before cs rest), rest)
    | '\'' :: inner =>
      if mark = [] ∨ mark = ['b'] then
        (characterEnd? inner).map fun rest =>
          let rest := suffixEnd rest
          (.literal (before cs rest), rest)
      else none
    | _ => none

/-! ### Names are no literals -/

theorem before_nil (cs : List Char) : before cs [] = String.ofList cs := by
  simp [before]

theorem literal?_eq_none {cs : List Char} (h : ∀ c ∈ cs, isNameChar c)
    (hd : cs.head?.any Char.isDigit = false) : literal? cs = none := by
  have hn : ∀ n, ∀ c ∈ cs.drop n, isNameChar c := fun n c hc => h c (List.mem_of_mem_drop hc)
  have hashes (n : Nat) : (cs.drop n).takeWhile (· = '#') = [] := by
    cases hr : cs.drop n with
    | nil => rfl
    | cons c rest =>
      have := hn n c (by simp [hr])
      have : c ≠ '#' := by rintro rfl; revert this; decide
      simp [this]
  unfold literal?
  simp only [hd, hashes, ite_self, List.length_nil, Nat.add_zero, Bool.false_eq_true, if_false]
  split
  · rfl
  · split
    · next inner hr => exact absurd (hn _ '"' (hr ▸ List.mem_cons_self)) (by decide)
    · next inner hr => exact absurd (hn _ '\'' (hr ▸ List.mem_cons_self)) (by decide)
    · rfl

end ActiveRow.Source
