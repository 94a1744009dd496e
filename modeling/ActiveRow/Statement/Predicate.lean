import ActiveRow.Statement

/-!
# Predicates

A list of clauses is first laid out as tokens: tests, connectors and parentheses. A group without
any test inside is left out, and the first clause of a list that is written drops its connector.
-/

namespace ActiveRow

inductive Token where
  | leaf (t : Test)
  | connector (c : Connector)
  | openGroup
  | closeGroup

mutual

/-- Whether a clause has no test anywhere inside. -/
def Clause.isVacant : Clause → Bool
  | test _ _ => false
  | group _ clauses => Clause.areVacant clauses

def Clause.areVacant : List Clause → Bool
  | [] => true
  | c :: rest => c.isVacant && Clause.areVacant rest

end

mutual

/-- The tokens of a clause, its connector left out. -/
def Clause.tokens : Clause → List Token
  | test _ t => [.leaf t]
  | group _ clauses => .openGroup :: Clause.listTokens true clauses ++ [.closeGroup]

/-- The tokens of a list of clauses; `first` says that none was written yet. -/
def Clause.listTokens : Bool → List Clause → List Token
  | _, [] => []
  | first, c :: rest =>
    if c.isVacant then Clause.listTokens first rest
    else
      (if first then [] else [.connector c.link]) ++ c.tokens ++ Clause.listTokens false rest

end

namespace Test

/-- A comparison with null is written as a test for null, other tests as they are. A list without
values holds nothing. -/
def pieces : Test → List Piece
  | compare column operator operand =>
    let op := Operator.written operator
    if operand.isNull ∧ (op = "=" ∨ op = "IS") then [.text column, .text " IS NULL"]
    else if operand.isNull ∧ (op = "!=" ∨ op = "<>" ∨ op = "IS NOT") then
      [.text column, .text " IS NOT NULL"]
    else [.text column, .text " ", .text op, .text " "] ++ operand.pieces
  | among column values negated =>
    if values.isEmpty then [.text (if negated then "1 = 1" else "0 = 1")]
    else
      [.text column, .text (if negated then " NOT IN (" else " IN (")] ++ Piece.slots values ++
        [.text ")"]
  | isNull column negated => [.text column, .text (if negated then " IS NOT NULL" else " IS NULL")]
  | between column low high negated =>
    [.text column, .text (if negated then " NOT BETWEEN " else " BETWEEN "), .slot low,
      .text " AND ", .slot high]
  | columns first operator second =>
    [.text first, .text " ", .text (Operator.written operator), .text " ", .text second]
  | raw r => r.pieces

end Test

def Token.pieces : Token → List Piece
  | leaf t => t.pieces
  | connector c => [.text " ", .text c.sql, .text " "]
  | openGroup => [.text "("]
  | closeGroup => [.text ")"]

/-- A list of clauses behind its keyword; nothing when no test is among them. -/
def Clause.listPieces (keyword : String) (clauses : List Clause) : List Piece :=
  if Clause.areVacant clauses then []
  else .text keyword :: (Clause.listTokens true clauses).flatMap Token.pieces

end ActiveRow
