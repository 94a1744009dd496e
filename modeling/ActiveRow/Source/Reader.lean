import ActiveRow.Source.Lexeme

/-!
# Reading from lexemes

A reader takes lexemes from the front of those that are left, and says what it expected where it
finds something else. It reads in a group of brackets, or outside all of them. What is left over in
a group is remembered, as the reader of what is around it goes on.

* `Place.leave_leftOver`: the first group in which something is left over is the one that is
  remembered.
* `Reader.name_run`: a name that is not reserved is read as it is.
-/

namespace ActiveRow.Source

/-- Why lexemes are not read. -/
inductive Misread where
  /-- What is written is something else than what is expected, or the lexemes end. -/
  | expected (what : String) (ended : Bool)
  /-- An attribute does not begin with a name. -/
  | unnamed (isLiteral : Bool)
  /-- Something is left over in a group. -/
  | leftOver (within : Bracket)
  /-- Bounds without a trait, of a type that is an object or any other. -/
  | noTrait (isObject : Bool)
  | notHere (what : String)
  /-- A bound that need not hold has names bound in it. -/
  | relaxedBinder
  deriving DecidableEq

def Misread.message : Misread → String
  | expected what ended =>
    (if ended then "unexpected end of input, " else "") ++ "expected " ++ what
  | unnamed isLiteral =>
    "unexpected " ++ (if isLiteral then "literal" else "token") ++
      " in nested attribute, expected ident"
  | leftOver within => "unexpected token, expected `" ++ within.closing.toString ++ "`"
  | noTrait isObject =>
    "at least one trait " ++
      if isObject then "is required for an object type" else "must be specified"
  | notHere what => what ++ " is not allowed here"
  | relaxedBinder => "`for<...>` binder not allowed with `?` trait polarity modifier"

/-- Where reading has got to. -/
structure Place where
  lexemes : List Lexeme
  /-- The brackets around the lexemes. -/
  within : Bracket := .round
  /-- The brackets around the first lexeme that has been left over. -/
  leftOver : Option Bracket := none
  /-- What has been read, as it is written again. -/
  read : List Lexeme := []

abbrev Reader := StateT Place (Except Misread)

namespace Place

/-- The place before `rest`, with all that has been read up to there. -/
def advance (p : Place) (rest : List Lexeme) : Place :=
  { p with lexemes := rest, read := p.read ++ p.lexemes.take (p.lexemes.length - rest.length) }

/-- The places inside and behind a group at the front. -/
def group? (p : Place) (b : Bracket) : Option (Place × Place) :=
  match p.lexemes with
  | .opens b' :: ts =>
    if b = b' then
      let (inner, rest) := groupEnd 0 ts
      let read := p.read ++ [.opens b]
      some ({ p with lexemes := inner, within := b, read }, { p with lexemes := rest })
    else none
  | _ => none

/-- Goes from inside a group to the place behind it. -/
def leave (inside behind : Place) : Place :=
  { behind with
    leftOver := inside.leftOver.or (if inside.lexemes.isEmpty then none else some inside.within)
    read := inside.read ++ [.closes inside.within] }

theorem leave_leftOver {inside behind : Place} {b : Bracket} (h : inside.leftOver = some b) :
    (inside.leave behind).leftOver = some b := by
  simp [leave, h]

end Place

/-! ### Looking ahead -/

def startsWith (sign : String) (ts : List Lexeme) : Bool := (signs? sign.toList ts).isSome

/-- Names that name nothing. -/
def reserved : List String :=
  ["_", "abstract", "as", "async", "await", "become", "box", "break", "const", "continue", "crate",
    "do", "dyn", "else", "enum", "extern", "false", "final", "fn", "for", "if", "impl", "in", "let",
    "loop", "macro", "match", "mod", "move", "mut", "override", "priv", "pub", "ref", "return",
    "Self", "self", "static", "struct", "super", "trait", "true", "try", "type", "typeof", "unsafe",
    "unsized", "use", "virtual", "where", "while", "yield"]

def startsName : List Lexeme → Bool
  | .name w :: _ => !reserved.contains w
  | _ => false

/-- Whether one of these names is at the front. -/
def startsWord (words : List String) : List Lexeme → Bool
  | .name w :: _ => words.contains w
  | _ => false

def startsAnyName : List Lexeme → Bool
  | .name _ :: _ => true
  | _ => false

def startsLifetime : List Lexeme → Bool
  | .lifetime _ :: _ => true
  | _ => false

def startsGroup (b : Bracket) : List Lexeme → Bool
  | .opens b' :: _ => b = b'
  | _ => false

/-- Whether a literal is at the front; numbers may have a minus. -/
def startsLiteral : List Lexeme → Bool
  | .text _ _ :: _ | .number _ :: _ | .literal _ :: _ => true
  | .sign '-' _ :: .number _ :: _ => true
  | ts => startsWord ["true", "false"] ts

theorem startsWord_eq_false {ws : List String} {w : String} {ts : List Lexeme} (h : w ∉ reserved)
    (hw : ws.all reserved.contains = true) : startsWord ws (.name w :: ts) = false := by
  cases hc : ws.contains w with
  | false => exact hc
  | true => exact absurd (by simpa using List.all_eq_true.1 hw w (by simpa using hc)) h

/-! ### Readers -/

namespace Reader

/-- What follows a reader that has read something goes on from there. -/
theorem ok_bind {ε α β : Type} (a : α) (f : α → Except ε β) : (Except.ok a >>= f) = f a := rfl

/-- Repeats a step, which reads something each time that it is to be repeated. -/
def repeatFrom {m : Type → Type} [Monad m] {σ : Type} (step : σ → m (ForInStep σ)) : Nat → σ → m σ
  | 0, s => pure s
  | n + 1, s => do
    match ← step s with
    | .done s => pure s
    | .yield s => repeatFrom step n s

def repeating {m : Type → Type} [Monad m] [MonadState Place m] {σ : Type}
    (step : σ → m (ForInStep σ)) (s : σ) : m σ := do
  repeatFrom step ((← get).lexemes.length + 1) s

/-- What is left. -/
def left : Reader (List Lexeme) := return (← get).lexemes

def fail {α : Type} (what : String) : Reader α := do
  throw (.expected what (← get).lexemes.isEmpty)

/-- Refuses what is found where one of several things is expected. -/
def failOf {α : Type} (whats : List String) : Reader α :=
  fail (match whats with
    | [a] => a
    | [a, b] => a ++ " or " ++ b
    | _ => "one of: " ++ String.intercalate ", " whats)

/-- Reads the first lexeme. -/
def next : Reader Unit := modify fun p => p.advance p.lexemes.tail

def sign (s : String) : Reader Unit := do
  match signs? s.toList (← left) with
  | some rest => modify (·.advance rest)
  | none => throw (.expected ("`" ++ s ++ "`") false)

/-- Reads a sign if it is there, and tells whether it was. -/
def sign? (s : String) : Reader Bool := do
  match signs? s.toList (← left) with
  | some rest => modify (·.advance rest); return true
  | none => return false

def word (w : String) : Reader Unit := do
  if startsWord [w] (← left) then next else fail ("`" ++ w ++ "`")

def word? (w : String) : Reader Bool := do
  if startsWord [w] (← left) then next; return true else return false

/-- A name that is not reserved. -/
def name : Reader String := do
  match ← left with
  | .name w :: _ =>
    if reserved.contains w then fail ("identifier, found keyword `" ++ w ++ "`")
    else next; return w
  | _ => fail "identifier"

theorem name_run {w : String} {p : Place} {ts : List Lexeme} (h : w ∉ reserved)
    (hp : p.lexemes = .name w :: ts) : name.run p = .ok (w, p.advance ts) := by
  simp [name, left, hp, h, next]
  rfl

/-- A name, which may be a reserved one. -/
def anyName : Reader String := do
  match ← left with
  | .name w :: _ => next; return w
  | _ => fail "ident"

def lifetime : Reader Unit := do
  if startsLifetime (← left) then next else fail "lifetime"

/-- A literal that is known to be there. -/
def literal : Reader Unit := do
  discard (sign? "-")
  next

def text : Reader String := do
  match ← left with
  | .text value _ :: _ => next; return value
  | _ => fail "string literal"

/-! ### Groups -/

def groupName : Bracket → String
  | .round => "parentheses"
  | .square => "square brackets"
  | .curly => "curly braces"

/-- Goes into a group, and gives the place behind it. -/
def enter (b : Bracket) : Reader Place := do
  match (← get).group? b with
  | some (inside, behind) => set inside; return behind
  | none => fail (groupName b)

def leave (behind : Place) : Reader Unit := modify (·.leave behind)

def inGroup {α : Type} (b : Bracket) (r : Reader α) : Reader α := do
  let behind ← enter b
  let a ← r
  leave behind
  return a

/-- Reads all that is left. -/
def all : Reader Unit := modify (·.advance [])

/-- Reads a group, whatever is in it. -/
def anyGroup : Reader Unit := do
  match ← left with
  | .opens b :: _ => inGroup b all
  | _ => fail "delimiter"

/-! ### What has been read -/

/-- Reads, and takes out what has been read. -/
def taken {α : Type} (r : Reader α) : Reader (α × List Lexeme) := do
  let before := (← get).read
  modify ({ · with read := [] })
  let a ← r
  let read := (← get).read
  modify ({ · with read := before })
  return (a, read)

/-- Adds to what has been read. -/
def emit (ts : List Lexeme) : Reader Unit := modify fun p => { p with read := p.read ++ ts }

end Reader

end ActiveRow.Source
