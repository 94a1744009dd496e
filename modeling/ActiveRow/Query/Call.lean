import ActiveRow.Query

/-!
# Calls

The calls that build a query, as data. Running a list of calls applies them in order; a nested
group runs its calls on an empty query and contributes the tests gathered there.
-/

namespace ActiveRow

inductive Call where
  | from_ (table : String)
  | select (columns : List String)
  | addSelect (column : String)
  | selectRaw (r : Raw)
  | distinct
  | filter (link : Connector) (t : Test)
  | nest (link : Connector) (calls : List Call)
  | join (kind : JoinKind) (table first operator second : String)
  | joinWhere (table column operator : String) (v : Value)
  | crossJoin (table : String)
  | joinClause (j : Join)
  | orderBy (column : String) (direction : Direction)
  | orderByRaw (r : Raw)
  | reorder
  | groupBy (columns : List String)
  | having (link : Connector) (t : Test)
  | take (n : UInt64)
  | skip (n : UInt64)
  | forPage (page perPage : UInt64)
  | when (condition : Bool) (calls : List Call)

mutual

/-- The query after a call. -/
def Call.run (q : Query) : Call → Query
  | .from_ table => q.from_ table
  | .select columns => q.select columns
  | .addSelect column => q.addSelect column
  | .selectRaw r => q.selectRaw r
  | .distinct => q.setDistinct
  | .filter link t => q.filter link t
  | .nest link calls => q.nest link (runCalls {} calls)
  | .join kind table first operator second => q.join kind table first operator second
  | .joinWhere table column operator v => q.joinWhere table column operator v
  | .crossJoin table => q.crossJoin table
  | .joinClause j => q.addJoin j
  | .orderBy column direction => q.orderBy column direction
  | .orderByRaw r => q.orderByRaw r
  | .reorder => q.reorder
  | .groupBy columns => q.groupBy columns
  | .having link t => q.having link t
  | .take n => q.take n
  | .skip n => q.skip n
  | .forPage page perPage => q.forPage page perPage
  | .when condition calls => if condition then runCalls q calls else q

/-- The query after a list of calls. -/
def runCalls (q : Query) : List Call → Query
  | [] => q
  | c :: rest => runCalls (c.run q) rest

end

theorem runCalls_append (calls more : List Call) :
    ∀ q, runCalls q (calls ++ more) = runCalls (runCalls q calls) more := by
  induction calls with
  | nil => intro q; rfl
  | cons c rest ih => intro q; simp [runCalls, ih]

end ActiveRow
