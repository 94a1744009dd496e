import ActiveRow.Source.Reader

/-!
# Paths

A path is names between pairs of colons. Each may have arguments in angle brackets, the last one
also in round brackets with a result behind them. Types, bounds and expressions stand inside of
paths and have paths inside, so readers of paths are given the readers of what is inside.

* `path_run`: a name by itself is a path.
* `arranged_ofTypes`: arguments that are all types stay as they are.
-/

namespace ActiveRow.Source

/-! ### What is read -/

/-- The arguments of a name in a path. -/
inductive Arguments where
  | none
  | angles (isEmpty : Bool)
  | group
  deriving DecidableEq

namespace Arguments

/-- Whether there are none between the brackets either. -/
def isEmpty : Arguments → Bool
  | none => true
  | angles isEmpty => isEmpty
  | group => false

end Arguments

/-- A path that has been read. -/
structure Path where
  /-- The last name and its arguments. -/
  last : String
  arguments : Arguments
  /-- The number of names. -/
  size : Nat := 1
  /-- Whether no name has arguments. -/
  isPlain : Bool := arguments = .none
  /-- Whether a pair of colons stands before it. -/
  isRooted : Bool := false
  /-- Whether it begins with a type. -/
  isQualified : Bool := false

namespace Path

/-- A path that goes on. -/
def append (p : Path) (last : String) (arguments : Arguments) : Path :=
  { p with last, arguments, size := p.size + 1, isPlain := p.isPlain && arguments = .none }

end Path

/-- A type that has been read. -/
inductive TypeForm where
  | path (p : Path)
  /-- Brackets around a type. -/
  | group
  /-- Bounds without a word before them, one or more. -/
  | bounds (isSingle : Bool)
  | other

/-- A bound that has been read. -/
inductive Bound where
  | lifetime
  | trait
  | capture
  deriving DecidableEq

/-- Readers of what may stand inside. -/
structure Inner where
  /-- Types, which may be sums or not. -/
  type : Bool → Reader TypeForm
  /-- Bounds, which may be captured names or not, and constant or not. -/
  bound : Bool → Bool → Reader Bound
  expression : Reader Unit

open Reader

/-! ### Arguments in angle brackets -/

/-- An argument that has been read: what is written, and whether a comma follows. -/
structure Argument where
  isLifetime : Bool
  written : List Lexeme
  hasComma : Bool

/-- Arguments are written with the lifetimes first. -/
def arranged (arguments : List Argument) : List Lexeme :=
  let written (a : Argument) := a.written ++ if a.hasComma then [.comma] else []
  let (lifetimes, others) := arguments.partition (·.isLifetime)
  let gap := others ≠ [] ∧ lifetimes.getLast?.any (!·.hasComma)
  lifetimes.flatMap written ++ (if gap then [.comma] else []) ++ others.flatMap written

/-- Items between commas, up to an angle bracket; with each whether a comma follows it. -/
def angleItems {α : Type} (item : Reader α) : Reader (List (α × Bool)) :=
  repeating (fun items => do
    if startsWith ">" (← left) then return .done items
    let a ← item
    if startsWith ">" (← left) then return .done (items ++ [(a, false)])
    sign ","
    return .yield (items ++ [(a, true)])) []

/-- Bounds between plus signs, up to one of the given signs. -/
def boundsUntil (i : Inner) (ends : List String) : Reader Unit :=
  repeating (fun _ => do
    let ts ← left
    if ends.any (startsWith · ts) then return .done ()
    discard (i.bound false true)
    if ← sign? "+" then return .yield ()
    return .done ()) ()

/-- A constant among arguments. -/
def constant : Reader Unit := do
  if startsGroup .curly (← left) then anyGroup else literal

def startsConstant (ts : List Lexeme) : Bool := startsLiteral ts || startsGroup .curly ts

/-- Whether a type that has been read may be given a value or bounds. -/
def TypeForm.isName : TypeForm → Bool
  | .path p => !p.isQualified && !p.isRooted && p.size = 1 && p.arguments ≠ .group
  | _ => false

/-- Reads an argument, and tells whether it is a lifetime. -/
def argument (i : Inner) : Reader Bool := do
  let ts ← left
  if startsLifetime ts && !startsWith "+" ts.tail then
    next
    return true
  if startsConstant ts then constant
  else
    let type ← i.type true
    if type.isName then
      if ← sign? "=" then
        if startsConstant (← left) then constant else discard (i.type true)
      else if ← sign? ":" then boundsUntil i [",", ">"]
  return false

/-- Reads arguments in angle brackets, and tells whether there are none. -/
def angleArguments (i : Inner) : Reader Bool := do
  discard (sign? "::")
  sign "<"
  let (items, _) ← taken (angleItems (taken (argument i)))
  emit (arranged (items.map fun ((isLifetime, written), hasComma) =>
    { isLifetime, written, hasComma }))
  sign ">"
  return items.isEmpty

/-! ### Paths -/

/-- Reads a name of a path with its arguments. In an expression they are behind a pair of colons. -/
def segment (i : Inner) (inExpression : Bool) : Reader (String × Arguments) := do
  let ts ← left
  if startsWord ["super", "self", "crate", "try"] ts then return (← anyName, .none)
  let w ← if startsWord ["Self"] ts then anyName else name
  let ts ← left
  let opens := startsWith "<" ts && !startsWith "<=" ts && !startsWith "<<=" ts
  let opensBehind := ((signs? "::".toList ts).map (startsWith "<")).getD false
  if (!inExpression && opens) || opensBehind then return (w, .angles (← angleArguments i))
  return (w, .none)

/-- Whether a group in round brackets follows, perhaps behind a pair of colons. -/
def startsGroupArguments (ts : List Lexeme) : Bool :=
  startsGroup .round ts || ((signs? "::".toList ts).map (startsGroup .round)).getD false

def pathRest (i : Inner) (inExpression : Bool) (p : Path) : Reader Path :=
  repeating (fun p => do
    let ts ← left
    if startsWith "::" ts && !startsGroupArguments ts then
      sign "::"
      let (w, arguments) ← segment i inExpression
      return .yield (p.append w arguments)
    return .done p) p

def path (i : Inner) (inExpression : Bool) : Reader Path := do
  let isRooted ← sign? "::"
  let (last, arguments) ← segment i inExpression
  pathRest i inExpression { last, arguments, isRooted }

/-- Reads a path that may begin with a type in angle brackets. -/
def qualifiedPath (i : Inner) (inExpression : Bool) : Reader Path := do
  if ← sign? "<" then
    discard (i.type true)
    let start ← if ← word? "as" then some <$> path i false else pure none
    sign ">"
    sign "::"
    let (last, arguments) ← segment i inExpression
    let first : Path := { last, arguments, isQualified := true, isRooted := start.isNone }
    repeating (fun p => do
      if ← sign? "::" then
        let (w, arguments) ← segment i inExpression
        return .yield (p.append w arguments)
      return .done p) first
  else path i inExpression

/-! ### Arguments in round brackets -/

/-- Items between commas, up to the end of a group. -/
def listItems {α : Type} (item : Reader α) : Reader (List α) :=
  repeating (fun items => do
    if (← left).isEmpty then return .done items
    let a ← item
    if (← left).isEmpty then return .done (items ++ [a])
    sign ","
    return .yield (items ++ [a])) []

/-- Reads the type of a result behind its arrow, and tells whether another path may go on behind
it. -/
def result (i : Inner) : Reader Bool := do
  if ← sign? "->" then
    match ← i.type false with
    | .group => return true
    | _ => return false
  return true

/-- Reads arguments in round brackets behind a name that has none. -/
def groupArguments (i : Inner) (p : Path) : Reader (Path × Bool) := do
  discard (taken (sign? "::"))
  -- brackets without arguments are not written again
  if p.arguments ≠ .none then
    modify fun place =>
      let read := place.read.take (place.read.length - 2)
      let colons := [Lexeme.sign ':' true, .sign ':' false]
      let isBehind := (read.drop (read.length - 2)).map Lexeme.written = colons.map Lexeme.written
      { place with read := if isBehind then read.take (read.length - 2) else read }
  discard (inGroup .round (listItems (i.type true)))
  return ({ p with arguments := .group, isPlain := false }, ← result i)

/-- Reads the path of a type. -/
def typePath (i : Inner) : Reader Path := do
  repeating (fun p => do
    if p.arguments.isEmpty && startsGroupArguments (← left) then
      let (p, goesOn) ← groupArguments i p
      return .yield (← if goesOn then pathRest i false p else pure p)
    return .done p) (← qualifiedPath i false)

theorem segment_run {i : Inner} {w : String} {p : Place} {ts : List Lexeme} (h : w ∉ reserved)
    (hp : p.lexemes = .name w :: ts) (ha : startsWith "<" ts = false)
    (hc : startsWith "::" ts = false) :
    (segment i false).run p = .ok ((w, .none), p.advance ts) := by
  have h₁ : startsWord ["super", "self", "crate", "try"] (.name w :: ts) = false :=
    startsWord_eq_false h (by decide)
  have h₂ : startsWord ["Self"] (.name w :: ts) = false := startsWord_eq_false h (by decide)
  have hn : signs? [':', ':'] ts = none := by simpa [startsWith] using hc
  simp [segment, left, hp, h₁, h₂, name_run h hp, ok_bind, Place.advance, ha, hn]
  rfl

theorem path_run {i : Inner} {w : String} {p : Place} {ts : List Lexeme} (h : w ∉ reserved)
    (hp : p.lexemes = .name w :: ts) (ha : startsWith "<" ts = false)
    (hc : startsWith "::" ts = false) :
    (path i false).run p = .ok ({ last := w, arguments := .none }, p.advance ts) := by
  simp [path, sign?, left, hp, signs?, segment_run h hp ha hc, pathRest, repeating, repeatFrom,
    ok_bind, hc, Place.advance]
  rfl

theorem arranged_ofTypes {arguments : List Argument} (h : ∀ a ∈ arguments, !a.isLifetime) :
    arranged arguments =
      arguments.flatMap fun a => a.written ++ if a.hasComma then [.comma] else [] := by
  have lifetimes : arguments.filter (·.isLifetime) = [] := by
    simpa [List.filter_eq_nil_iff] using h
  have others : (arguments.filter fun a => !a.isLifetime) = arguments :=
    List.filter_eq_self.2 h
  simp [arranged, List.partition_eq_filter_filter, Function.comp_def, lifetimes, others]

end ActiveRow.Source
