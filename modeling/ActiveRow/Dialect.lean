/-!
# Dialects

The flavours of SQL that adapters speak.

* `Dialect.ofName?_name`: a dialect is found by its name.
-/

namespace ActiveRow

/-- How the place of a bound value is written: a question mark, or a dollar sign and its number. -/
inductive Placeholder where
  | question
  | numbered
  deriving DecidableEq

inductive Dialect where
  | postgres
  | mysql
  | sqlite
  | generic
  deriving DecidableEq

namespace Dialect

def name : Dialect → String
  | postgres => "postgres"
  | mysql => "mysql"
  | sqlite => "sqlite"
  | generic => "generic"

def ofName? (n : String) : Option Dialect :=
  [postgres, mysql, sqlite, generic].find? fun d => d.name == n

theorem ofName?_name (d : Dialect) : ofName? d.name = some d := by cases d <;> decide

def placeholder : Dialect → Placeholder
  | postgres => .numbered
  | mysql | sqlite | generic => .question

/-- Whether an INSERT can return columns of the new row. -/
def supportsReturning : Dialect → Bool
  | postgres | sqlite => true
  | mysql | generic => false

end Dialect

end ActiveRow
