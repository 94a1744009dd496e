import ActiveRow.Json.Number

/-!
# Reading JSON documents

The whole text must be one document with blanks around it, nested in at most 127 containers.
Control characters must be escaped inside strings, and escaped surrogates must come in pairs. Of
several members of one name the last counts.
-/

namespace ActiveRow.Json

def isSpace (c : Char) : Bool := c == ' ' || c == '\t' || c == '\n' || c == '\r'

def skipSpace (cs : List Char) : List Char := cs.dropWhile isSpace

/-- The character of a one-letter escape. -/
def unescape? (c : Char) : Option Char :=
  if c = '"' ∨ c = '\\' ∨ c = '/' then some c
  else if c = 'b' then some (Char.ofNat 8)
  else if c = 'f' then some (Char.ofNat 12)
  else if c = 'n' then some '\n'
  else if c = 'r' then some '\r'
  else if c = 't' then some '\t'
  else none

/-- Reads a string up to its closing quote. -/
def stringBody (acc : List Char) : List Char → Option (String × List Char)
  | [] => none
  | '"' :: rest => some (String.ofList acc.reverse, rest)
  | '\\' :: 'u' :: a :: b :: c :: d :: rest =>
    match Hex.read? [a, b, c, d] with
    | none => none
    | some n =>
      if 0xDC00 ≤ n ∧ n ≤ 0xDFFF then none
      else if 0xD800 ≤ n ∧ n ≤ 0xDBFF then
        match rest with
        | '\\' :: 'u' :: e :: f :: g :: h :: rest =>
          match Hex.read? [e, f, g, h] with
          | none => none
          | some m =>
            if 0xDC00 ≤ m ∧ m ≤ 0xDFFF then
              stringBody (Char.ofNat (0x10000 + (n - 0xD800) * 0x400 + (m - 0xDC00)) :: acc) rest
            else none
        | _ => none
      else stringBody (Char.ofNat n :: acc) rest
  | '\\' :: c :: rest =>
    match unescape? c with
    | none => none
    | some e => stringBody (e :: acc) rest
  | c :: rest => if c.toNat < 32 ∨ c = '\\' then none else stringBody (c :: acc) rest

/-- Drops a word from the front. -/
def word? (word : List Char) (cs : List Char) : Option (List Char) :=
  if word.isPrefixOf cs then some (cs.drop word.length) else none

mutual

/-- Reads a document; `depth` containers may still be opened. -/
def value? : Nat → Nat → List Char → Option (Json × List Char)
  | 0, _, _ => none
  | fuel + 1, depth, cs =>
    match skipSpace cs with
    | 'n' :: rest => (word? ['u', 'l', 'l'] rest).map (null, ·)
    | 't' :: rest => (word? ['r', 'u', 'e'] rest).map (bool true, ·)
    | 'f' :: rest => (word? ['a', 'l', 's', 'e'] rest).map (bool false, ·)
    | '"' :: rest => (stringBody [] rest).map fun (s, r) => (string s, r)
    | '[' :: rest =>
      match depth, skipSpace rest with
      | 0, _ => none
      | _ + 1, ']' :: r => some (array [], r)
      | d + 1, r => items? fuel d [] r
    | '\x7b' :: rest =>
      match depth, skipSpace rest with
      | 0, _ => none
      | _ + 1, '\x7d' :: r => some (object [], r)
      | d + 1, r => fields? fuel d [] r
    | r => number? r

/-- Reads the items of an array up to its closing bracket. -/
def items? : Nat → Nat → List Json → List Char → Option (Json × List Char)
  | 0, _, _, _ => none
  | fuel + 1, depth, acc, cs =>
    match value? fuel depth cs with
    | none => none
    | some (j, rest) =>
      match skipSpace rest with
      | ',' :: r => items? fuel depth (j :: acc) r
      | ']' :: r => some (array (j :: acc).reverse, r)
      | _ => none

/-- Reads the members of an object up to its closing brace. -/
def fields? : Nat → Nat → List (String × Json) → List Char → Option (Json × List Char)
  | 0, _, _, _ => none
  | fuel + 1, depth, acc, cs =>
    match skipSpace cs with
    | '"' :: r =>
      match stringBody [] r with
      | none => none
      | some (key, r) =>
        match skipSpace r with
        | ':' :: r =>
          match value? fuel depth r with
          | none => none
          | some (j, rest) =>
            match skipSpace rest with
            | ',' :: r => fields? fuel depth ((key, j) :: acc) r
            | '\x7d' :: r => some (object (sortFields ((key, j) :: acc).reverse), r)
            | _ => none
        | _ => none
    | _ => none

end

/-- The number of containers that may be open at once. -/
def maxDepth : Nat := 127

/-- Reads a document that takes up the whole text. -/
def ofText? (s : String) : Option Json :=
  let cs := s.toList
  match value? (2 * cs.length + 2) maxDepth cs with
  | some (j, rest) => if (skipSpace rest).isEmpty then some j else none
  | none => none

end ActiveRow.Json
