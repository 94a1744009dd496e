import ActiveRow.Text.Blank

/-!
# Comparison operators

The operators that a comparison accepts, blanks around them and the case of their letters aside.
-/

namespace ActiveRow.Operator

def accepted : List String :=
  ["=", "<", ">", "<=", ">=", "<>", "!=", "like", "not like", "ilike", "not ilike", "&", "|", "^",
    "<<", ">>", "similar to", "not similar to", "regexp", "not regexp", "is", "is not"]

def isValid (operator : String) : Bool := accepted.contains (Text.lower (Text.trim operator))

/-- The operator as it is written into a statement. -/
def written (operator : String) : String := Text.upper (Text.trim operator)

end ActiveRow.Operator
