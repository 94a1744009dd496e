import ActiveRow.Postgres.Server
import ActiveRow.Proofs.Action
import ActiveRow.Proofs.Compilation.Mentions

/-!
# Which statements return rows

A statement is taken to return rows by its first word, or because RETURNING stands in it between
spaces. For the statements that queries are compiled to, this is decided by their form alone, as
long as no text of a changing statement mentions the word itself.

* `returnsRows_eq`: a text by its first word.
* `Server.from_execute_eq_ok`: what a statement is answered with.
* `Form.statement_classified`: so reading is answered with rows, and changing with a count.
-/

namespace ActiveRow

open Text

namespace Postgres

/-- The first words of statements that return rows. -/
def readingWords : List String := ["SELECT", "WITH", "VALUES", "SHOW", "TABLE", "EXPLAIN"]

/-- **A text that begins with a word** is classified by this word and by what it mentions. -/
theorem returnsRows_eq {sql keyword rest : String} (hsql : sql = keyword ++ " " ++ rest)
    (hne : keyword.toList ≠ []) (halpha : ∀ c ∈ keyword.toList, c.isAlpha = true) :
    returnsRows sql = (readingWords.contains (Text.upper keyword) ||
      occursIn (' ' :: returning ++ [' ']) (sql.toList.map Char.toUpper)) := by
  have hlist : sql.toList = keyword.toList ++ ' ' :: rest.toList := by simp [hsql]
  have htrim : trimStart sql.toList = sql.toList := by
    obtain ⟨c, cs, hkeyword⟩ := List.exists_cons_of_ne_nil hne
    have hc : isBlank c = false := by
      have hletter := halpha c (hkeyword ▸ List.mem_cons_self)
      exact isBlank_of_isAlphanum (by simp [Char.isAlphanum, hletter])
    rw [hlist, hkeyword, trimStart, List.cons_append, List.dropWhile_cons_of_neg (by simp [hc])]
  have hfirst : (sql.toList.takeWhile Char.isAlpha) = keyword.toList := by
    rw [hlist, List.takeWhile_append_of_pos halpha, List.takeWhile_cons_of_neg (by decide),
      List.append_nil]
  unfold returnsRows
  simp only [htrim, hfirst, String.ofList_toList]
  rfl

/-- A statement with a clause for returning a column returns rows. -/
theorem returnsRows_returning {s : Statement} {keyword rest : String}
    (hsql : s.sql = keyword ++ " " ++ rest) (hne : keyword.toList ≠ [])
    (halpha : ∀ c ∈ keyword.toList, c.isAlpha = true) (key : String) :
    returnsRows (Adapter.returning s key).sql = true := by
  have hshape :
      (Adapter.returning s key).sql = keyword ++ " " ++ (rest ++ " RETURNING " ++ key) := by
    simp only [Adapter.returning, hsql, String.append_assoc]
  rw [returnsRows_eq hshape hne halpha, Bool.or_eq_true, occursIn_iff]
  right
  refine ⟨s.sql.toList.map Char.toUpper, key.toList.map Char.toUpper, ?_⟩
  have hclause : " RETURNING ".toList.map Char.toUpper = ' ' :: returning ++ [' '] := by decide
  simp only [Adapter.returning, String.toList_append, List.map_append, hclause]

namespace Server

/-- **What a statement is answered with**: its rows, if it returns any, or else the number of rows
that it changed. -/
theorem from_execute_eq_ok {connection : Nat} {sql : String} {values : List Value} {s s' : Server}
    {out : Output} {reply : Reply} (hreply : s.replies.head?.getD {} = reply)
    (h : (execute connection sql values).from_ s = (.ok out, s')) :
    (returnsRows sql = true → ∃ rows, reply.rows.mapM (row reply.columns) = .ok rows ∧
      out = .ofRows rows) ∧
    (returnsRows sql = false →
      out = .affected (reply.affected.getD (UInt64.ofNat reply.rows.length))) := by
  rw [execute] at h
  obtain ⟨reply', s₁, hnext, h⟩ := Action.from_bind_eq_ok h
  obtain rfl : reply = reply' := by
    rw [← hreply]
    exact Except.ok.inj (congrArg Prod.fst hnext)
  generalize returnsRows sql = returns at h ⊢
  dsimp only at h
  split at h
  · -- the reply is a failure that strikes first
    simp [Action.from_bind] at h
  · obtain ⟨bs, -, h⟩ := Action.from_ofExcept_bind_eq_ok h
    obtain ⟨-, s₂, -, h⟩ := Action.from_bind_eq_ok h
    split at h
    · simp at h
    · cases returns with
      | true =>
        simp only [if_true] at h
        split at h
        · simp at h
        · obtain ⟨rows, hrows, h⟩ := Action.from_ofExcept_bind_eq_ok h
          cases h
          exact ⟨fun _ => ⟨rows, hrows, rfl⟩, nofun⟩
      | false =>
        cases h
        exact ⟨nofun, fun _ => rfl⟩

end Server

end Postgres

namespace Form

open Postgres

/-- The first word of a statement. -/
def keyword : Form → String
  | select | probe | aggregate _ _ => "SELECT"
  | insert _ _ => "INSERT"
  | update _ => "UPDATE"
  | delete => "DELETE"
  | truncate => "TRUNCATE"

theorem keyword_ne_nil (f : Form) : f.keyword.toList ≠ [] := by
  unfold keyword
  split <;> decide

theorem isAlpha_of_mem_keyword (f : Form) : ∀ c ∈ f.keyword.toList, c.isAlpha = true := by
  rw [← List.all_eq_true]
  unfold keyword
  split <;> decide

/-- The statements that read are those that begin with a word for reading. -/
theorem contains_keyword (f : Form) :
    readingWords.contains (Text.upper f.keyword) = !decide f.Changes := by
  have hreads : readingWords.contains (Text.upper "SELECT") = true := by decide
  have hchanges : ∀ w ∈ ["INSERT", "UPDATE", "DELETE", "TRUNCATE"],
      readingWords.contains (Text.upper w) = false := by decide
  cases f with
  | select => exact hreads
  | probe => exact hreads
  | aggregate a column => exact hreads
  | insert columns rows => exact hchanges "INSERT" (by decide)
  | update assignments => exact hchanges "UPDATE" (by decide)
  | delete => exact hchanges "DELETE" (by decide)
  | truncate => exact hchanges "TRUNCATE" (by decide)

theorem render_front {front keyword rest : String} (h : front = keyword ++ " " ++ rest)
    (ps : List Piece) :
    ∃ rest', Piece.render .numbered 0 (.text front :: ps) = keyword ++ " " ++ rest' :=
  ⟨rest ++ Piece.render .numbered 0 ps, by rw [Piece.render, h, String.append_assoc]⟩

/-- **The first word** of a statement is that of its form. -/
theorem render_layout (table : String) (q : Query) (f : Form) :
    ∃ rest, Piece.render .numbered 0 (f.layout .postgres table q) = f.keyword ++ " " ++ rest := by
  have hselect : "SELECT " = "SELECT" ++ " " ++ "" := by decide
  have hinsert : "INSERT INTO " = "INSERT" ++ " " ++ "INTO " := by decide
  have hupdate : "UPDATE " = "UPDATE" ++ " " ++ "" := by decide
  have hdelete : "DELETE FROM " = "DELETE" ++ " " ++ "FROM " := by decide
  cases f with
  | select => exact render_front hselect _
  | probe => exact render_front hselect _
  | aggregate a column =>
    simp only [layout, Query.aggregatePieces]
    split
    · have hfront : "SELECT " ++ (a.expression column ++ " FROM (") =
          "SELECT" ++ " " ++ (a.expression column ++ " FROM (") := by
        rw [hselect, String.append_empty]
      exact render_front (String.append_assoc.trans hfront) _
    · exact render_front hselect _
  | insert columns rows => exact render_front hinsert _
  | update assignments => exact render_front hupdate _
  | delete => exact render_front hdelete _
  | truncate =>
    have hemptying : emptying .postgres = "TRUNCATE" ++ " " ++ "TABLE " := by decide
    have hfront : emptying .postgres ++ table = "TRUNCATE" ++ " " ++ ("TABLE " ++ table) := by
      rw [hemptying, String.append_assoc]
    exact render_front hfront []

/-- **Statements are classified by their form.** Of the statements that a query is compiled to,
those that read return rows, whatever their texts are, and those that change do not, as long as none
of their texts mentions the word. An insertion that asks for a column returns rows. So reading is
answered with rows and changing with a count. -/
theorem statement_classified {q : Query} {f : Form} {stmt : Statement}
    (h : f.statement .postgres q = .ok stmt)
    (htexts : f.Changes → ∀ s ∈ f.texts q, ¬Mentions returning s.toList) :
    returnsRows stmt.sql = !decide f.Changes ∧
      (∀ key, returnsRows (Adapter.returning stmt key).sql = true) ∧
        ∀ (connection : Nat) (values : List Value) (s s' : Server) (out : Output),
          (Server.execute connection stmt.sql values).from_ s = (.ok out, s') →
            let reply := s.replies.head?.getD {}
            (f.Changes → out = .affected (reply.affected.getD (UInt64.ofNat reply.rows.length))) ∧
              (¬f.Changes → ∃ rows, reply.rows.mapM (Server.row reply.columns) = .ok rows ∧
                out = .ofRows rows) := by
  rw [statement_eq] at h
  cases hcheck : f.check q with
  | error cause =>
    rw [hcheck] at h
    cases h
  | ok table =>
    rw [hcheck] at h
    have htable := (check_eq_ok_iff.1 hcheck).2.1
    have hrender : stmt.sql = Piece.render .numbered 0 (f.layout .postgres table q) :=
      congrArg Statement.sql (Piece.finish_eq_ok h)
    obtain ⟨rest, hsql⟩ := render_layout table q f
    rw [← hrender] at hsql
    have hreturns : returnsRows stmt.sql = !decide f.Changes := by
      rw [returnsRows_eq hsql f.keyword_ne_nil f.isAlpha_of_mem_keyword, contains_keyword]
      by_cases hf : f.Changes
      · have hsilent := (silent_layout htable hf (htexts hf)).not_mentions 0
        rw [← hrender] at hsilent
        have hnone : occursIn (' ' :: returning ++ [' ']) (stmt.sql.toList.map Char.toUpper) =
            false := by
          refine Bool.eq_false_iff.2 fun hoccurs => hsilent (mentions_map_toUpper.1 ?_)
          exact mentions_of_occursIn (by decide) (by decide) hoccurs
        rw [hnone, Bool.or_false]
      · simp [hf]
    refine ⟨hreturns, returnsRows_returning hsql f.keyword_ne_nil f.isAlpha_of_mem_keyword, ?_⟩
    intro connection values s s' out hanswer
    obtain ⟨hrows, hcount⟩ := Server.from_execute_eq_ok rfl hanswer
    exact ⟨fun hf => hcount (by simp [hreturns, hf]), fun hf => hrows (by simp [hreturns, hf])⟩

set_option maxRecDepth 2000 in
/-- An update whose texts have the word inside others. -/
theorem statement_classified_update :
    let q : Query :=
      { Query.on "returnings" with
        wheres := [.test .and (.compare "returning_id" "=" (.value (.int 1)))] }
    let f : Form := .update [("note", .raw ⟨"'never,returning' || ?", [.text "x"]⟩)]
    ∃ stmt : Statement, f.statement .postgres q = .ok stmt ∧
      stmt.sql = "UPDATE returnings SET note = 'never,returning' || $1 WHERE returning_id = $2" ∧
        returnsRows stmt.sql = false ∧ returnsRows (Adapter.returning stmt "id").sql = true := by
  intro q f
  have hstatement : f.statement .postgres q = .ok
      ⟨"UPDATE returnings SET note = 'never,returning' || $1 WHERE returning_id = $2",
        [.text "x", .int 1]⟩ := rfl
  have hclassified := statement_classified hstatement fun _ => by decide +kernel
  exact ⟨_, hstatement, rfl, hclassified.1, hclassified.2.1 "id"⟩

end Form

end ActiveRow
