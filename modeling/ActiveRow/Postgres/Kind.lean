/-!
# Column types of PostgreSQL

The built-in types of columns and parameters, with their names and object numbers. An array is named
after the type of its items.
-/

namespace ActiveRow.Postgres

/-- A type that is no array. -/
inductive Scalar where
  | bool
  | char
  | int2
  | int4
  | int8
  | oid
  | float4
  | float8
  | numeric
  | uuid
  | timestamptz
  | timestamp
  | date
  | json
  | jsonb
  | text
  | varchar
  | bpchar
  | name
  | unknown
  /-- A type whose values are neither read nor written in a form of their own. -/
  | other (number : Nat)
  deriving DecidableEq

inductive Kind where
  | scalar (s : Scalar)
  | array (item : Scalar)
  deriving DecidableEq

namespace Scalar

def number : Scalar → Nat
  | bool => 16
  | char => 18
  | name => 19
  | int8 => 20
  | int2 => 21
  | int4 => 23
  | text => 25
  | oid => 26
  | json => 114
  | float4 => 700
  | float8 => 701
  | unknown => 705
  | bpchar => 1042
  | varchar => 1043
  | date => 1082
  | timestamp => 1114
  | timestamptz => 1184
  | numeric => 1700
  | uuid => 2950
  | jsonb => 3802
  | other n => n

/-- The types by name. -/
def named : List (String × Scalar) :=
  [("bool", bool), ("char", char), ("int2", int2), ("int4", int4), ("int8", int8), ("oid", oid),
    ("float4", float4), ("float8", float8), ("numeric", numeric), ("uuid", uuid),
    ("timestamptz", timestamptz), ("timestamp", timestamp), ("date", date), ("json", json),
    ("jsonb", jsonb), ("text", text), ("varchar", varchar), ("bpchar", bpchar), ("name", name),
    ("unknown", unknown), ("bytea", other 17), ("regproc", other 24), ("tid", other 27),
    ("xid", other 28), ("cid", other 29), ("xml", other 142), ("point", other 600),
    ("lseg", other 601), ("path", other 602), ("box", other 603), ("polygon", other 604),
    ("line", other 628), ("cidr", other 650), ("circle", other 718), ("macaddr8", other 774),
    ("money", other 790), ("macaddr", other 829), ("inet", other 869), ("time", other 1083),
    ("interval", other 1186), ("timetz", other 1266), ("bit", other 1560), ("varbit", other 1562),
    ("tsvector", other 3614), ("tsquery", other 3615), ("int4range", other 3904),
    ("numrange", other 3906), ("tsrange", other 3908), ("tstzrange", other 3910),
    ("daterange", other 3912), ("int8range", other 3926), ("jsonpath", other 4072)]

/-- Whether values of the type are read as their text. -/
def isTextual : Scalar → Bool
  | text | varchar | bpchar | name | unknown => true
  | _ => false

end Scalar

namespace Kind

/-- The type of a name; an array's name ends in a pair of brackets. -/
def ofName (name : String) : Kind :=
  let scalar (n : List Char) : Scalar := (Scalar.named.lookup (String.ofList n)).getD (.other 0)
  match name.toList.reverse with
  | ']' :: '[' :: item => .array (scalar item.reverse)
  | _ => .scalar (scalar name.toList)

end Kind

end ActiveRow.Postgres
