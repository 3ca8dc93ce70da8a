import SqlBuilder.Proofs.Validity

/-!
# Statements and dialects

A grammar decides by two abilities only which statements it admits: whether
writes may have an order and a limit, and whether union members may stand in
parentheses.  What one grammar renders, every grammar with the same abilities
and more renders too.
-/

namespace SqlBuilder

namespace Grammar

/-- The one grammar has every ability of the other. -/
structure CanAll (wide narrow : Grammar) : Prop where
  boundsWrites : narrow.boundsWrites = true → wide.boundsWrites = true
  parenthesizesMembers : narrow.parenthesizesMembers = true → wide.parenthesizesMembers = true

/-- A grammar that says no more than it must. -/
def plain (name : String) (quote : Quote) (randomOrder : String) : Grammar :=
  { name, quote, randomOrder }

end Grammar

section Abilities

variable {wide narrow : Grammar}

theorem Header.EndsWrite.mono {h : Header} (canAll : wide.CanAll narrow)
    (ends : h.EndsWrite narrow) : h.EndsWrite wide :=
  ⟨ends.limit, ends.offset, fun given => canAll.boundsWrites (ends.bounded given)⟩

theorem UnionMember.Admitted.mono {m : UnionMember} (canAll : wide.CanAll narrow)
    (admitted : m.Admitted narrow) : m.Admitted wide :=
  ⟨admitted.unlocked, fun apart => canAll.parenthesizesMembers (admitted.parenthesized apart)⟩

theorem Statement.Admitted.mono {s : Statement} (canAll : wide.CanAll narrow)
    (admitted : s.Admitted narrow) : s.Admitted wide := by
  unfold Statement.Admitted at admitted ⊢
  cases known : s.kind with
  | undecided | insert | raw =>
      rw [known] at admitted
      exact admitted
  | select =>
      rw [known] at admitted
      obtain ⟨limit, offset, members⟩ := admitted
      exact ⟨limit, offset, fun m mem => (members m mem).mono canAll⟩
  | random =>
      rw [known] at admitted
      obtain ⟨offset, members⟩ := admitted
      exact ⟨offset, fun m mem => (members m mem).mono canAll⟩
  | update =>
      rw [known] at admitted
      obtain ⟨unjoined, tables, nonempty, ends⟩ := admitted
      exact ⟨unjoined, tables, nonempty, ends.mono canAll⟩
  | delete =>
      rw [known] at admitted
      obtain ⟨unjoined, tables, ends⟩ := admitted
      exact ⟨unjoined, tables, ends.mono canAll⟩

/-- The parts are the same for every grammar, so each is admitted by the wider one. -/
theorem Piece.AllAdmitted.mono {whole : Piece} {content : whole.Content}
    (canAll : wide.CanAll narrow) (all : whole.AllAdmitted narrow content) :
    whole.AllAdmitted wide content := by
  intro piece path part shown fill
  have admitted := all piece path part shown fill
  cases piece with
  | value => exact admitted
  | condition => exact admitted
  | statement => exact Statement.Admitted.mono canAll admitted

end Abilities

namespace Statement

/-- The statement with another grammar; all that is nested in it stays as it is. -/
def withGrammar (s : Statement) (g : Grammar) : Statement :=
  { s with config := { s.config with grammar := g } }

/-- The statement has a text when it is rendered by the grammar in place of its own. -/
def RendersIn (s : Statement) (g : Grammar) (trace : Trace) : Prop :=
  ∃ sql, answer ((s.withGrammar g).render trace) = .ok sql

theorem sql_withGrammar (s : Statement) (g : Grammar) : (s.withGrammar g).sql = s.sqlIn g := by
  cases s
  rfl

theorem rendersIn_iff (s : Statement) (g : Grammar) (trace : Trace) :
    s.RendersIn g trace ↔ Piece.AllAdmitted g .statement s := by
  rw [← renders_iff s g trace]
  unfold RendersIn render
  rw [answer_render (s.withGrammar g).notify_ok, sql_withGrammar]
  cases s.sqlIn g trace with
  | ok sql left => exact ⟨fun _ => ⟨sql, left, rfl⟩, fun _ => ⟨sql, rfl⟩⟩
  | error fault left =>
      constructor
      · rintro ⟨sql, rendered⟩
        cases rendered
      · rintro ⟨sql, left, rendered⟩
        cases rendered

/-- What one grammar renders, a grammar with all its abilities renders on any other trace too. -/
theorem RendersIn.mono {s : Statement} {wide narrow : Grammar} {before : Trace}
    (renders : s.RendersIn narrow before) (canAll : wide.CanAll narrow) (after : Trace) :
    s.RendersIn wide after :=
  (rendersIn_iff s wide after).mpr (((rendersIn_iff s narrow before).mp renders).mono canAll)

/--
A statement that SQLite renders is rendered by PostgreSQL.  PostgreSQL, SQL
Server and the grammars that say no more than they must render the same
statements, and MySQL renders all of these.
-/
theorem dialects_by_ability (s : Statement) (name : String) (quote : Quote) (randomOrder : String)
    (before after : Trace) :
    (s.RendersIn .sqlite before → s.RendersIn .postgres after) ∧
      (s.RendersIn .postgres before ↔ s.RendersIn .sqlServer after) ∧
      (s.RendersIn .sqlServer before ↔ s.RendersIn (.plain name quote randomOrder) after) ∧
      (s.RendersIn .postgres before → s.RendersIn .mysql after) := by
  have same {g g' : Grammar} (writes : g.boundsWrites = g'.boundsWrites)
      (members : g.parenthesizesMembers = g'.parenthesizesMembers) :
      s.RendersIn g before ↔ s.RendersIn g' after :=
    ⟨fun renders => renders.mono ⟨fun can => writes ▸ can, fun can => members ▸ can⟩ after,
      fun renders => renders.mono ⟨fun can => writes ▸ can, fun can => members ▸ can⟩ before⟩
  have parentheses : Grammar.CanAll .postgres .sqlite := ⟨id, fun _ => rfl⟩
  have bounds : Grammar.CanAll .mysql .postgres := ⟨fun _ => rfl, id⟩
  exact ⟨fun renders => renders.mono parentheses after, same rfl rfl, same rfl rfl,
    fun renders => renders.mono bounds after⟩

theorem dialects_by_ability_drawing :
    drawn.RendersIn .sqlite [] ∧ drawn.RendersIn .postgres [] ∧
      ¬ drawing.RendersIn .sqlite [] ∧ drawing.RendersIn .postgres [] ∧
      drawing.RendersIn .sqlServer [] ∧
      drawing.RendersIn (.plain "ansi" .double "RANDOM()") [] ∧ drawing.RendersIn .mysql [] := by
  have narrow : drawn.RendersIn .sqlite [] := ⟨_, rfl⟩
  have middle : drawing.RendersIn .postgres [] := ⟨_, rfl⟩
  obtain ⟨toPostgres, -⟩ := dialects_by_ability drawn "ansi" .double "RANDOM()" [] []
  obtain ⟨-, toSqlServer, toPlain, toMySql⟩ :=
    dialects_by_ability drawing "ansi" .double "RANDOM()" [] []
  have server := toSqlServer.mp middle
  have refused : ¬ drawing.RendersIn .sqlite [] := by
    rintro ⟨sql, rendered⟩
    cases rendered
  exact ⟨narrow, toPostgres narrow, refused, middle, server, toPlain.mp server, toMySql middle⟩

end Statement

end SqlBuilder
