/-!
# Lexemes of source text

What is declared is source text: names, names behind a quote, signs, literals and brackets. A sign
of more than one character is so many signs that are joined.

* `groupEnd_append`: a group ends at the first bracket that closes more than has been opened.
-/

namespace ActiveRow.Source

inductive Bracket where
  | round
  | square
  | curly
  deriving DecidableEq

namespace Bracket

def opening : Bracket → Char
  | round => '('
  | square => '['
  | curly => '\x7b'

def closing : Bracket → Char
  | round => ')'
  | square => ']'
  | curly => '\x7d'

end Bracket

inductive Lexeme where
  | name (written : String)
  /-- A name behind a quote, with the quote. -/
  | lifetime (written : String)
  /-- One character of a sign, and whether another sign follows it without a gap. -/
  | sign (c : Char) (joined : Bool)
  /-- A quoted text. -/
  | text (value written : String)
  | number (written : String)
  /-- A literal that is neither text nor number. -/
  | literal (written : String)
  | opens (b : Bracket)
  | closes (b : Bracket)
  deriving DecidableEq

namespace Lexeme

def written : Lexeme → String
  | name w | lifetime w | text _ w | number w | literal w => w
  | sign c _ => c.toString
  | opens b => b.opening.toString
  | closes b => b.closing.toString

def isBracket : Lexeme → Bool
  | opens _ | closes _ => true
  | _ => false

def comma : Lexeme := sign ',' false

/-- A text as it is quoted in a declaration. -/
def quoted (value : String) : Lexeme := text value ("\"" ++ value ++ "\"")

end Lexeme

/-- Lexemes between round brackets. -/
def inBrackets (ts : List Lexeme) : List Lexeme := .opens .round :: ts ++ [.closes .round]

/-- What follows a sign at the front of the lexemes, if it stands there. -/
def signs? : List Char → List Lexeme → Option (List Lexeme)
  | [], ts => some ts
  | [c], .sign d _ :: ts => if c = d then some ts else none
  | c :: cs, .sign d joined :: ts => if c = d ∧ joined then signs? cs ts else none
  | _, _ => none

/-- The lexemes up to the bracket that closes the group which they stand in, and those behind it. So
many other brackets are open. -/
def groupEnd (depth : Nat) : List Lexeme → List Lexeme × List Lexeme
  | [] => ([], [])
  | t :: ts =>
    let next := match t with
      | .opens _ => depth + 1
      | .closes _ => depth - 1
      | _ => depth
    if t matches .closes _ ∧ depth = 0 then ([], ts)
    else
      let (inner, rest) := groupEnd next ts
      (t :: inner, rest)

theorem groupEnd_append {ts rest : List Lexeme} {b : Bracket} (h : ∀ t ∈ ts, !t.isBracket) :
    groupEnd 0 (ts ++ .closes b :: rest) = (ts, rest) := by
  induction ts with
  | nil => rfl
  | cons t ts ih =>
    obtain ⟨ht, h⟩ := List.forall_mem_cons.1 h
    cases t <;> simp_all [groupEnd, Lexeme.isBracket]

end ActiveRow.Source
