import ActiveRow.Decimal.Literal
import ActiveRow.Text.Blank
import ActiveRow.Text.Hex

/-!
# Addresses of databases

An address is a URL, or a list of settings, each a name, an equals sign and a value. Reading one
gives its settings in order, each with a value that its name allows.
-/

namespace ActiveRow.Postgres.Address

abbrev Setting := String × String

/-! ### Values -/

/-- The parts of a text between separators. -/
def split (separator : Char) : List Char → List (List Char)
  | [] => [[]]
  | c :: rest =>
    if c = separator then [] :: split separator rest
    else match split separator rest with
      | part :: parts => (c :: part) :: parts
      | [] => [[c]]

/-- A part of an internet address in dots: up to three digits, no more than 255, no leading zero. -/
def isOctet (cs : List Char) : Bool :=
  (cs.length = 1 || (cs.length ≤ 3 && cs.head? ≠ some '0')) &&
    match Decimal.natural 255 cs with
    | .ok _ => cs.all Decimal.isDigit
    | .error _ => false

/-- An internet address of four octets. -/
def isDotted (cs : List Char) : Bool :=
  let parts := split '.' cs
  parts.length = 4 && parts.all isOctet

def isHexGroup (cs : List Char) : Bool :=
  0 < cs.length && cs.length ≤ 4 && cs.all fun c => (Hex.value? c).isSome

/-- The number of groups in a list of them, the last of which may be a dotted address. -/
def groupCount? : List (List Char) → Option Nat
  | [] => some 0
  | [last] => if isHexGroup last then some 1 else if isDotted last then some 2 else none
  | g :: rest => if isHexGroup g then (groupCount? rest).map (· + 1) else none

/-- The two sides of the first pair of colons. -/
def gap? : List Char → Option (List Char × List Char)
  | ':' :: ':' :: rest => some ([], rest)
  | c :: rest => (gap? rest).map fun (a, b) => (c :: a, b)
  | [] => none

/-- An internet address of eight groups, zeros left out at most once. -/
def isGrouped (cs : List Char) : Bool :=
  let count (part : List Char) := if part.isEmpty then some 0 else groupCount? (split ':' part)
  match gap? cs with
  | some (a, b) =>
    match count a, count b with
    | some m, some n => m + n ≤ 7 && (a.isEmpty || (split ':' a).all isHexGroup)
    | _, _ => false
  | none => groupCount? (split ':' cs) = some 8

def isInteger (cs : List Char) : Bool := (Decimal.integer 64 cs).isOk

def isCount (limit : Nat) (cs : List Char) : Bool := (Decimal.count limit cs).isOk

/-- Whether a setting of this name may have this value. -/
def allows (name : String) (value : List Char) : Bool :=
  let word := String.ofList value
  match name with
  | "user" | "password" | "dbname" | "options" | "application_name" | "host" => true
  | "sslmode" => ["disable", "prefer", "require"].contains word
  | "sslnegotiation" => ["postgres", "direct"].contains word
  | "hostaddr" => (split ',' value).all fun a => isDotted a || isGrouped a
  | "port" => (split ',' value).all fun p => p.isEmpty || isCount 65535 p
  | "connect_timeout" | "tcp_user_timeout" | "keepalives_idle" | "keepalives_interval" =>
    isInteger value
  | "keepalives" => isCount 18446744073709551615 value
  | "keepalives_retries" => isCount 4294967295 value
  | "target_session_attrs" => ["any", "read-write", "read-only"].contains word
  | "channel_binding" => ["disable", "prefer", "require"].contains word
  | "load_balance_hosts" => ["disable", "random"].contains word
  | _ => false

def setting? (name : String) (value : List Char) : Option Setting :=
  if allows name value then some (name, String.ofList value) else none

/-! ### Lists of settings -/

/-- Reads a value up to a quote or, outside quotes, a blank. A backslash takes the next character as
it is. Gives the value and what follows it. -/
def word (quoted : Bool) : List Char → List Char × List Char
  | [] => ([], [])
  | '\\' :: c :: rest => let (v, left) := word quoted rest; (c :: v, left)
  | '\\' :: [] => ([], [])
  | c :: rest =>
    if (if quoted then c = '\'' else Text.isBlank c) then ([], c :: rest)
    else let (v, left) := word quoted rest; (c :: v, left)

/-- Reads the value of a setting. -/
def value? : List Char → Option (List Char × List Char)
  | '\'' :: rest =>
    match word true rest with
    | (v, '\'' :: left) => some (v, left)
    | _ => none
  | cs =>
    match word false cs with
    | ([], _) => none
    | (v, left) => some (v, left)

/-- Reads settings until none begins. -/
def settings? : Nat → List Char → Option (List Setting)
  | 0, _ => some []
  | fuel + 1, cs => do
    let cs := Text.trimStart cs
    let isName (c : Char) : Bool := !Text.isBlank c && c != '='
    let name := cs.takeWhile isName
    if name.isEmpty then some []
    else match Text.trimStart (cs.dropWhile isName) with
      | '=' :: rest =>
        let (value, left) ← value? (Text.trimStart rest)
        pure ((← setting? (String.ofList name) value) :: (← settings? fuel left))
      | _ => none

/-! ### URLs -/

/-- The bytes of a text, `%` and two hexadecimal digits standing for one. -/
def percentBytes : List Char → List UInt8
  | [] => []
  | '%' :: a :: b :: rest =>
    match Hex.value? a, Hex.value? b with
    | some x, some y => UInt8.ofNat (x * 16 + y) :: percentBytes rest
    | _, _ => '%'.toString.toUTF8.toList ++ percentBytes (a :: b :: rest)
  | c :: rest => c.toString.toUTF8.toList ++ percentBytes rest

def percent? (cs : List Char) : Option (List Char) :=
  (String.fromUTF8? ⟨(percentBytes cs).toArray⟩).map String.toList

/-- A host; one that is a path need not be text. -/
def host? (cs : List Char) : Option Setting :=
  if (percentBytes cs).head? = some 47 then some ("host", String.ofList cs)
  else (percent? cs).bind (setting? "host")

/-- Splits a host from the number behind it. A host in brackets may hold colons. -/
def endpoint? : List Char → Option (List Char × Option (List Char))
  | '[' :: rest =>
    match rest.dropWhile (· ≠ ']') with
    | ']' :: ':' :: number => some (rest.takeWhile (· ≠ ']'), some number)
    | [']'] => some (rest.takeWhile (· ≠ ']'), none)
    | _ => none
  | cs =>
    match cs.dropWhile (· ≠ ':') with
    | _ :: number => some (cs.takeWhile (· ≠ ':'), some number)
    | [] => some (cs, none)

def hosts? (cs : List Char) : Option (List Setting) := do
  if cs.isEmpty then pure []
  else
    let pairs ← (split ',' cs).mapM fun chunk => do
      let (host, number) ← endpoint? chunk
      let h ← host? host
      let p ← setting? "port" (← percent? (number.getD "5432".toList))
      pure [h, p]
    pure pairs.flatten

def parameter? (cs : List Char) : Option Setting := do
  match cs.dropWhile (· ≠ '=') with
  | _ :: value =>
    let name := String.ofList (← percent? (cs.takeWhile (· ≠ '=')))
    if name = "host" then host? value else setting? name (← percent? value)
  | [] => none

/-- The parameters of a URL; nothing follows a last ampersand. -/
def parameters? (cs : List Char) : Option (List Setting) :=
  let parts := split '&' cs
  (if parts.getLast? = some [] then parts.dropLast else parts).mapM parameter?

/-- Reads a URL behind its scheme. -/
def url? (cs : List Char) : Option (List Setting) := do
  let (credentials, cs) ← match cs.dropWhile (· ≠ '@') with
    | _ :: rest => do
      let user ← percent? ((cs.takeWhile (· ≠ '@')).takeWhile (· ≠ ':'))
      pure ([("user", String.ofList user)], rest)
    | [] => pure ([], cs)
  let isEnd (c : Char) : Bool := c == '/' || c == '?'
  let hosts ← hosts? (cs.takeWhile fun c => !isEnd c)
  let cs := cs.dropWhile fun c => !isEnd c
  let (path, query) := (cs.takeWhile (· ≠ '?'), (cs.dropWhile (· ≠ '?')).drop 1)
  let dbname ← percent? (path.drop 1)
  let database := if dbname.isEmpty then [] else [("dbname", String.ofList dbname)]
  pure (credentials ++ hosts ++ database ++ (← parameters? query))

/-- Reads an address. -/
def settingsOf? (address : String) : Option (List Setting) :=
  let cs := address.toList
  match ["postgres://", "postgresql://"].find? fun scheme => scheme.toList.isPrefixOf cs with
  | some scheme => url? (cs.drop scheme.length)
  | none => settings? (cs.length + 1) cs

end ActiveRow.Postgres.Address
