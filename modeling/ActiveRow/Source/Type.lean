import ActiveRow.Source.Path

/-!
# Types

Types are paths, groups, references, pointers, functions and sums of bounds. What stands inside of
a type is shorter than the type, so the readers are tied up to a depth, and as many lexemes as are
left are deep enough.

* `typeOf?_name`: a name by itself is a path.
-/

namespace ActiveRow.Source

open Reader

/-! ### Attributes and bound names -/

/-- Reads attributes, whatever they say. -/
def attributes : Reader Unit :=
  repeating (fun _ => do
    if ← sign? "#" then
      inGroup .square all
      return .yield ()
    return .done ()) ()

/-- Reads lifetimes between plus signs. -/
def lifetimes : Reader Unit :=
  repeating (fun _ => do
    let ts ← left
    if ts.isEmpty || startsWith "," ts || startsWith ">" ts then return .done ()
    lifetime
    if ← sign? "+" then return .yield ()
    return .done ()) ()

/-- Reads a name that is to be bound: of a type, a lifetime or a constant. -/
def parameter (i : Inner) : Reader Unit := do
  attributes
  let ts ← left
  if startsName ts then
    next
    if ← sign? ":" then boundsUntil i [",", ">", "="]
    if ← sign? "=" then discard (i.type true)
  else if startsLifetime ts then
    next
    if ← sign? ":" then lifetimes
  else if startsWord ["const"] ts then
    next
    discard name
    sign ":"
    discard (i.type true)
    if ← sign? "=" then
      if startsConstant (← left) then constant
      else throw (.expected "a constant" (← left).isEmpty)
  else failOf ["identifier", "lifetime", "`const`"]

/-- Reads names that are bound, if they are, and tells whether they are. -/
def binder? (i : Inner) : Reader Bool := do
  if ← word? "for" then
    sign "<"
    discard (angleItems (parameter i))
    sign ">"
    return true
  return false

/-! ### Bounds -/

/-- Reads a trait, which may be constant or not. -/
def traitBound (i : Inner) (mayBeConstant : Bool) : Reader Unit := do
  let hasBinder ← binder? i
  let ts ← left
  if startsGroup .square ts then
    inGroup .square (word "const")
    if !mayBeConstant then throw (.notHere "`[const]`")
  else if startsWord ["const"] ts then
    next
    if !mayBeConstant then throw (.notHere "`const`")
  let isRelaxed ← sign? "?"
  let hasBinder ← if isRelaxed && !hasBinder then binder? i else pure hasBinder
  let p ← path i false
  if p.arguments.isEmpty && startsGroupArguments (← left) then discard (groupArguments i p)
  if hasBinder && isRelaxed then throw .relaxedBinder

/-- Reads the names that a type captures. -/
def captured : Reader Unit := do
  word "use"
  sign "<"
  repeating (fun _ => do
    let ts ← left
    if startsLifetime ts || startsName ts || startsWord ["Self"] ts then next
    else if startsWith ">" ts then return .done ()
    else failOf ["lifetime", "identifier", "`>`"]
    if ← sign? "," then return .yield ()
    if startsWith ">" (← left) then return .done ()
    failOf ["`,`", "`>`"]) ()
  sign ">"

def boundWith (i : Inner) (mayCapture mayBeConstant : Bool) : Reader Bound := do
  let ts ← left
  if startsLifetime ts then
    next
    return .lifetime
  if startsWord ["use"] ts then
    captured
    if !mayCapture then throw (.notHere "`use<...>` precise capturing syntax")
    return .capture
  if startsGroup .round ts then inGroup .round (traitBound i mayBeConstant)
  else traitBound i mayBeConstant
  return .trait

/-- Whether another bound may follow a plus sign. -/
def startsBound (ts : List Lexeme) : Bool :=
  startsAnyName ts || startsWith "::" ts || startsWith "?" ts || startsLifetime ts ||
    startsGroup .round ts

/-- Reads a sum of bounds, or a single one. -/
def bounds (i : Inner) (isSum mayCapture mayBeConstant : Bool) : Reader (List Bound) :=
  repeating (fun read => do
    let read := read ++ [← boundWith i mayCapture mayBeConstant]
    if isSum && startsWith "+" (← left) then
      sign "+"
      let ts ← left
      if startsBound ts || (mayBeConstant && startsGroup .square ts) then return .yield read
    return .done read) []

/-- Reads what follows the first bound of a sum. -/
def moreBounds (i : Inner) : Reader Unit :=
  repeating (fun _ => do
    if ← sign? "+" then
      discard (boundWith i false false)
      return .yield ()
    return .done ()) ()

/-- Reads the bounds of an object, one of which is a trait. -/
def object (i : Inner) (isSum : Bool) : Reader Unit := do
  let read ← bounds i isSum false false
  if !read.contains .trait then throw (.noTrait true)

/-! ### Kinds of types -/

/-- Reads a type that begins with a round bracket. -/
def groupType (i : Inner) (isSum : Bool) : Reader TypeForm := do
  let behind ← enter .round
  let ts ← left
  if ts.isEmpty then
    leave behind
    return .other
  if startsLifetime ts then
    object i true
    leave behind
    return .group
  if startsWith "?" ts then
    traitBound i false
    leave behind
    let isSingle := !startsWith "+" (← left)
    moreBounds i
    return .bounds isSingle
  let first ← i.type true
  if ← sign? "," then
    discard (listItems (i.type true))
    leave behind
    return .other
  leave behind
  let isBound := match first with
    | .path p => !p.isQualified
    | .bounds isSingle => isSingle
    | _ => false
  if isSum && isBound && startsWith "+" (← left) then
    moreBounds i
    return .bounds false
  return .group

/-- Reads a parameter in the type of a function. -/
def functionParameter (i : Inner) (isFirst : Bool) : Reader Unit := do
  attributes
  let ts ← left
  let isMutable := isFirst && startsWord ["mut"] ts && startsWord ["self"] ts.tail
  if isMutable then next
  let ts ← left
  let isNamed := (startsName ts || startsWord ["_"] ts || (isFirst && startsWord ["self"] ts)) &&
    startsWith ":" ts.tail && !startsWith "::" ts.tail
  if isNamed then
    next
    sign ":"
  if isMutable && !isNamed then word "self"
  else discard (i.type true)

def functionParameters (i : Inner) : Reader Unit :=
  repeating (fun isFirst => do
    if (← left).isEmpty then return .done isFirst
    attributes
    let ts ← left
    let isNamed := startsName ts || startsWord ["_"] ts
    let isOpen := (signs? [':'] ts.tail).any (startsWith "...")
    if startsWith "..." ts || (isNamed && isOpen) then
      if isNamed then
        next
        sign ":"
      sign "..."
      discard (sign? ",")
      return .done isFirst
    functionParameter i isFirst
    if (← left).isEmpty then return .done isFirst
    sign ","
    return .yield false) true *> pure ()

def functionType (i : Inner) : Reader Unit := do
  discard (word? "unsafe")
  if ← word? "extern" then
    match ← left with
    | .text _ _ :: _ => next
    | _ => pure ()
  word "fn"
  inGroup .round (functionParameters i)
  discard (result i)

/-- Reads a type that begins with a path, behind names that are bound or not. -/
def namedType (i : Inner) (isSum hasBinder : Bool) : Reader TypeForm := do
  let p ← typePath i
  if p.isQualified then return .path p
  let ts ← left
  if startsWith "!" ts && !startsWith "!=" ts && p.isPlain then
    sign "!"
    anyGroup
    return .other
  if hasBinder || (isSum && startsWith "+" ts) then
    let isSingle ← repeating (fun isSingle => do
      if isSum && startsWith "+" (← left) then
        sign "+"
        if !startsBound (← left) then return .done false
        discard (boundWith i false false)
        return .yield false
      return .done isSingle) true
    return .bounds isSingle
  return .path p

/-- Names that begin a path although they are reserved. -/
def pathWords : List String := ["super", "self", "Self", "crate"]

def functionWords : List String := ["fn", "unsafe", "extern"]

def typeWith (i : Inner) (isSum : Bool) : Reader TypeForm := do
  if ← binder? i then
    let ts ← left
    if startsWord functionWords ts then
      functionType i
      return .other
    if startsName ts || startsWord pathWords ts then return ← namedType i isSum true
    failOf ["identifier", "`fn`", "`unsafe`", "`extern`", "`super`", "`self`", "`Self`", "`crate`"]
  let ts ← left
  if startsGroup .round ts then return ← groupType i isSum
  if startsWord functionWords ts then
    functionType i
    return .other
  if startsName ts || startsWord pathWords ts || startsWith "::" ts || startsWith "<" ts then
    return ← namedType i isSum false
  if ← word? "dyn" then
    discard (sign? "*")
    object i isSum
    return .bounds false
  if startsGroup .square ts then
    inGroup .square do
      discard (i.type true)
      if ← sign? ";" then i.expression
    return .other
  if ← sign? "*" then
    if startsWord ["const", "mut"] (← left) then next else failOf ["`const`", "`mut`"]
    discard (i.type false)
    return .other
  if ← sign? "&" then
    if startsLifetime (← left) then next
    discard (word? "mut")
    discard (i.type false)
    return .other
  if ← sign? "!" then return .other
  if ← word? "impl" then
    let read ← bounds i isSum true true
    if !read.contains .trait then throw (.noTrait false)
    return .other
  if ← word? "_" then return .other
  if startsLifetime ts then
    object i true
    return .bounds false
  failOf ["`for`", "parentheses", "`fn`", "`unsafe`", "`extern`", "identifier", "`::`", "`<`",
    "`dyn`", "square brackets", "`*`", "`&`", "`!`", "`impl`", "`_`", "lifetime"]

/-! ### Expressions -/

/-- Signs between operands, longer ones before those that they begin with. -/
def operators : List String :=
  ["&&", "||", "<<", ">>", "==", "!=", "<=", ">=", "..=", "..", "+", "-", "*", "/", "%", "&", "|",
    "^", "<", ">"]

/-- Words before a block. -/
def blockWords : List String := ["if", "while", "for", "loop", "match", "async", "unsafe", "const"]

/-- Reads up to the end of a block, and on behind it as long as it has another one. -/
def block : Reader Unit :=
  repeating (fun _ => do
    let ts ← left
    if startsGroup .curly ts then
      anyGroup
      return if startsWord ["else"] (← left) then .yield () else .done ()
    if ts.isEmpty then fail "curly braces"
    if ts.head?.any (· matches .opens _) then anyGroup else next
    return .yield ()) ()

/-- Reads what an expression begins with. -/
def atom (i : Inner) : Reader Unit := do
  let ts ← left
  if startsLiteral ts then literal
  else if ts.head?.any (· matches .opens _) then anyGroup
  else if startsName ts || startsWord ("try" :: pathWords) ts || startsWith "::" ts ||
      startsWith "<" ts then
    discard (qualifiedPath i true)
    let ts ← left
    if startsWith "!" ts && !startsWith "!=" ts then
      sign "!"
      anyGroup
    else if startsGroup .curly ts then anyGroup
  else if startsWord blockWords ts then block
  else if !(← word? "_") then fail "an expression"

/-- Reads calls, indices, fields and what else may follow an operand. -/
def behindAtom (i : Inner) : Reader Unit :=
  repeating (fun _ => do
    let ts ← left
    if startsGroup .round ts || startsGroup .square ts then
      anyGroup
      return .yield ()
    if ← sign? "?" then return .yield ()
    if !startsWith ".." ts && startsWith "." ts then
      sign "."
      match ← left with
      | .number _ :: _ => next
      | _ =>
        discard anyName
        if startsWith "::" (← left) then discard (angleArguments i)
      return .yield ()
    return .done ()) ()

/-- Reads an operand behind the signs before it. -/
def operand (i : Inner) : Reader Unit := do
  repeating (fun _ => do
    if startsLiteral (← left) then return .done ()
    if ← sign? "&" then
      discard (word? "mut")
      return .yield ()
    if ← ["*", "!", "-"].anyM sign? then return .yield ()
    return .done ()) ()
  atom i
  behindAtom i

def expressionWith (i : Inner) : Reader Unit := do
  operand i
  repeating (fun _ => do
    if ← word? "as" then
      discard (i.type false)
      return .yield ()
    if ← operators.anyM sign? then
      operand i
      return .yield ()
    return .done ()) ()

/-! ### All together -/

/-- The readers of what is nested no deeper than this. -/
def innerOf : Nat → Inner
  | 0 => { type := fun _ => fail "a type", bound := fun _ _ => fail "a bound"
           expression := fail "an expression" }
  | depth + 1 =>
    let i := innerOf depth
    { type := typeWith i, bound := boundWith i, expression := expressionWith i }

/-- Reads the path of a model. -/
def modelPath : Reader Path := do path (innerOf (← left).length) false

/-- The type that is written. -/
def typeOf? (ts : List Lexeme) : Option TypeForm :=
  match (typeWith (innerOf ts.length) true).run { lexemes := ts } with
  | .ok (type, place) => if place.lexemes.isEmpty then some type else none
  | .error _ => none

theorem typeOf?_name {w : String} (h : w ∉ reserved) :
    typeOf? [.name w] = some (.path { last := w, arguments := .none }) := by
  have h₁ : startsWord ["for"] [.name w] = false := startsWord_eq_false h (by decide)
  have h₂ : startsWord functionWords [.name w] = false := startsWord_eq_false h (by decide)
  have hp (i : Inner) := path_run (i := i) (p := { lexemes := [.name w] }) h rfl rfl rfl
  simp [typeOf?, typeWith, binder?, word?, left, h₁, h₂, startsGroup, startsName, h, namedType,
    typePath, qualifiedPath, sign?, signs?, hp, repeating, repeatFrom]
  rfl

end ActiveRow.Source
