import SqlBuilder.Proofs.Delivery
import SqlBuilder.Proofs.Enclosure
import SqlBuilder.Proofs.Intent

/-!
# Running a group concatenation

A group concatenation has a text of its own, in which the aggregate stands in
the place of the selected columns.  It is run by the actions of its statement,
and these send the text of the statement: the columns that the statement
selects by itself, and neither the aggregate nor the separator nor the name.
-/

namespace SqlBuilder

open Factor

namespace Scope

variable {scope : Scope}

/-- What stands in the place of the selected columns, from the texts of the joined columns. -/
def aggregate (scope : Scope) (c : GroupConcat) (texts : List String) : String :=
  scope.grammar.concatAggregate texts (scope.literal c.separator) ++ " AS " ++
    scope.wrapped c.label

/-- The text of a group concatenation is its aggregate and the body of its statement. -/
theorem yields_concat {c : GroupConcat} {own : String} (yields : Yields (scope.concat c) own) :
    ∃ texts body, Yields (scope.expressionTexts c.columns) texts ∧
      Yields (scope.body c.statement.toHeader (scope.joins c.statement.joins)
        (scope.wheres c.statement)) body ∧
      own = "SELECT " ++ scope.aggregate c texts ++ body := by
  obtain ⟨-, yields⟩ := yields_guarded yields
  obtain ⟨texts, joined, yields⟩ := yields_bind yields
  obtain ⟨body, written, yields⟩ := yields_bind yields
  refine ⟨texts, body, joined, written, ?_⟩
  rw [← yields_pure yields]
  simp only [aggregate, String.append_assoc]

/-- The text of a selection without a limit in front is its columns, its body and what follows. -/
theorem yields_selection {h : Header} {joins wheres members : Render String} {sql : String}
    (plain : ∀ limit offset, scope.grammar.selectTop limit offset = none)
    (yields : Yields (scope.select h joins wheres members) sql) :
    ∃ selected body rest, Yields (scope.columns h) selected ∧
      Yields (scope.body h joins wheres) body ∧
      sql = "SELECT " ++ ((if h.distinct then "DISTINCT " else "") ++ selected) ++ body ++ rest := by
  obtain ⟨limit, -, yields⟩ := yields_bind yields
  obtain ⟨offset, -, yields⟩ := yields_bind yields
  obtain ⟨selected, chosen, yields⟩ := yields_bind yields
  obtain ⟨body, written, yields⟩ := yields_bind yields
  obtain ⟨united, -, yields⟩ := yields_bind yields
  obtain ⟨order, -, yields⟩ := yields_bind yields
  refine ⟨selected, body, united ++ order ++ scope.pagination limit offset h.isOrdered ++
    scope.lockSuffix h, chosen, written, ?_⟩
  rw [← yields_pure yields, plain]
  apply String.toList_inj.mp
  cases h.distinct <;> simp [spaced]

end Scope

namespace GroupConcat

variable {c : GroupConcat} {trace left left' : Trace} {own sent : String}

/-- A group concatenation over columns that its statement does not select is never sent. -/
theorem sent_ne_own {texts : List String} {distinct : Bool} {label rest rest' : String}
    (owned : own = "SELECT " ++ (Grammar.stringAgg texts label ++ rest))
    (selected : sent = "SELECT " ++ ((if distinct then "DISTINCT " else "") ++ "*") ++ rest') :
    sent ≠ own := by
  rw [owned, selected]
  intro same
  have characters := congrArg (fun text => text.toList[7]?) same
  cases distinct <;> simp [Grammar.stringAgg] at characters

/--
A group concatenation is run by the actions of its statement.  Each of them
sends the text of the statement, once, or nothing.  That text has the columns
which the statement selects in the place where the text of the concatenation
has its aggregate, separator and name; if the statement selects no columns by
itself, what is sent is never the text of the concatenation.
-/
theorem runs_as_selection {Row : Type} (client : Client Row) (made : c.Made)
    (postgres : c.statement.config.grammar = .postgres) :
    c.statement.Delivers .executed client.execute (c.statement.execute client) ∧
    c.statement.Delivers .queried client.query (c.statement.query client) ∧
    c.statement.Delivers .queried (fun request => client.query request >>= Statement.firstRow)
      (c.statement.queryOne client) ∧
    c.statement.Delivers .queried (fun request => client.query request >>= fun rows => .ok rows.head?)
      (c.statement.queryOption client) ∧
    ∀ trace own sent left left', c.sql trace = .ok own left → c.statement.sql trace = .ok sent left' →
      ∃ texts selected body body' rest,
        own = "SELECT " ++ (c.statement.scope .postgres).aggregate c texts ++ body ∧
        sent = "SELECT " ++ ((if c.statement.distinct then "DISTINCT " else "") ++ selected) ++
          body' ++ rest ∧
        Yields ((c.statement.scope .postgres).columns c.statement.toHeader) selected ∧
        (c.statement.columns = [] → sent ≠ own) := by
  refine ⟨Statement.delivers_prepare _ .executed client.execute,
    Statement.delivers_prepare _ .queried client.query, Statement.delivers_queryOne client _,
    Statement.delivers_queryOption client _, fun trace own sent left left' rendered ran => ?_⟩
  unfold sql at rendered
  unfold Statement.sql at ran
  rw [postgres] at rendered ran
  obtain ⟨texts, body, -, -, owned⟩ := Scope.yields_concat ⟨trace, left, rendered⟩
  have kind : c.statement.kind ∈ [.select, .random] := by
    rw [made.selects.1.selects.2]
    exact List.mem_cons_self
  have yields : Yields ((c.statement.scope .postgres).statement c.statement) sent :=
    ⟨trace, left', ran⟩
  rw [Scope.statement_of_selects kind] at yields
  obtain ⟨selected, body', rest, chosen, -, written⟩ :=
    Scope.yields_selection (fun _ _ => rfl) yields
  refine ⟨texts, selected, body, body', rest, owned, written, chosen, fun none => ?_⟩
  have all : selected = "*" := by
    rw [Scope.columns, none] at chosen
    exact (yields_pure chosen).symm
  rw [all, String.append_assoc] at written
  rw [Scope.aggregate, String.append_assoc, String.append_assoc, String.append_assoc] at owned
  exact sent_ne_own owned written

/-- The names of users, joined. -/
def joinedNames : GroupConcat :=
  { ((ofConfig {}).addColumns [.text "name"]).1 with
    statement := ((Call.tables [.text "users"]).run.after
      { statement := ({} : Config).selection }).statement }

theorem made_joinedNames : joinedNames.Made := by
  have given : (Call.tables [.text "users"]).Gives (fun _ => True) Statement.Reachable
      { statement := ({} : Config).selection } :=
    ⟨trivial, List.forall_mem_nil _, List.forall_mem_nil _⟩
  exact .call (.columns (.fresh {}) [.text "name"]) (.tables [.text "users"]) rfl given

theorem runs_as_selection_names :
    joinedNames.statement.config.grammar = .postgres ∧
    joinedNames.statement.execute Statement.answering [] =
      .ok 3 [.executed ⟨"SELECT * FROM \"users\"", []⟩] ∧
    ∃ own, joinedNames.sql [] = .ok own [] ∧ "SELECT * FROM \"users\"" ≠ own := by
  have postgres : joinedNames.statement.config.grammar = .postgres := rfl
  obtain ⟨executes, -, -, -, texts⟩ :=
    runs_as_selection Statement.answering made_joinedNames postgres
  have sendable : joinedNames.statement.Sendable := ⟨rfl, fun _ mem => nomatch mem⟩
  have selected : joinedNames.statement.sql [] = .ok "SELECT * FROM \"users\"" [] := rfl
  obtain ⟨parameters, infers, -, went⟩ := executes.sent [] [] _ sendable selected
  cases infers
  obtain ⟨_, _, _, _, _, -, -, -, differs⟩ := texts [] _ _ _ _ rfl selected
  exact ⟨postgres, went, _, rfl, differs rfl⟩

/-- What is sent is not the text of the concatenation. -/
theorem selection_is_sent :
    joinedNames.Made ∧
    joinedNames.sql [] = .ok "SELECT STRING_AGG(\"name\", ',') AS \"concat\" FROM \"users\"" [] ∧
    joinedNames.statement.Sendable ∧
    joinedNames.statement.execute Statement.answering [] =
      .ok 3 [.executed ⟨"SELECT * FROM \"users\"", []⟩] :=
  ⟨made_joinedNames, rfl, ⟨rfl, fun _ mem => nomatch mem⟩, rfl⟩

end GroupConcat

end SqlBuilder
