import SqlBuilder.Proofs.Enclosure
import SqlBuilder.Proofs.Noninterference

/-!
# Only what is valid is rendered

A statement is rendered if and only if every part of it that is written is
admitted by the grammar.  So nothing invalid is ever written, at any depth,
and nothing valid is refused.  What a failing rendering reports is a fault of
the rendering and nothing else.
-/

namespace SqlBuilder

open Factor

namespace Scope

variable {scope : Scope}

/-- A statement that was written has what its kind needs. -/
theorem admitted_of_yields {s : Statement} {sql : String}
    (yields : Yields (scope.statement s) sql) : s.Admitted scope.grammar := by
  have united {ms : List UnionMember} {others : String} (written : Yields (scope.members ms) others)
      (m : UnionMember) (mem : m ∈ ms) : m.Admitted scope.grammar := by
    obtain ⟨_, text, _, yields, -⟩ := writes_memberText mem others written
    obtain ⟨_, member, -⟩ := yields_bind yields
    exact (yields_member member).1
  rw [statement_eq] at yields
  unfold Statement.Admitted
  cases known : s.kind with
  | undecided =>
      rw [known] at yields
      exact absurd yields (not_yields_throw _)
  | select =>
      rw [known] at yields
      obtain ⟨limit, offset, _, _, others, _, -, written, -⟩ := yields_select yields
      have plain : s.isRandom = false := by
        unfold Header.isRandom
        rw [known]
        rfl
      exact ⟨limit plain, offset, united written⟩
  | random =>
      rw [known] at yields
      obtain ⟨-, offset, _, _, others, _, -, written, -⟩ := yields_select yields
      exact ⟨offset, united written⟩
  | insert =>
      rw [known] at yields
      obtain ⟨target, nonempty, _, texts, written, -⟩ := yields_insert yields
      obtain ⟨width, -⟩ := yields_rows written
      refine ⟨target, by simpa using nonempty, fun named => width fun none => named ?_⟩
      exact List.length_eq_zero_iff.mp none
  | update =>
      rw [known] at yields
      obtain ⟨unjoined, tables, nonempty, ends, -⟩ := yields_update yields
      exact ⟨by simpa using unjoined, tables, by simpa using nonempty, ends⟩
  | delete =>
      rw [known] at yields
      obtain ⟨unjoined, tables, ends, -⟩ := yields_delete yields
      exact ⟨by simpa using unjoined, tables, ends⟩
  | raw =>
      rw [known] at yields
      intro none
      simp only [raw, none] at yields
      exact not_yields_throw _ yields

/-- A number with a literal is finite. -/
theorem finite_of_yields {x : Double} {text : String} (yields : Yields (number x) text) :
    x.isFinite = true := by
  by_cases finite : x.isFinite = true
  · exact finite
  · rw [number, if_neg finite] at yields
    exact absurd yields (not_yields_throw _)

/-- A condition that was written has the bounds that it needs. -/
theorem bounds_of_yields {p : Predicate} {text : String} (yields : Yields (scope.predicate p) text)
    {op : Operator} (compares : p.operator = some op) :
    Comparison.of op p.value ≠ .badBetween := by
  obtain ⟨key, column, operator, operand, connective⟩ := p
  cases compares
  intro bad
  obtain ⟨_, -, yields⟩ := yields_bind yields
  rw [bad] at yields
  exact not_yields_throw _ yields

/-- What is written for a number stands where the number stands. -/
theorem writesValue_float (x : Double) : WritesValue scope (number x) (.float x) := by
  have single (op : Operator) : Comparison.of op (.float x) = Comparison.single op := by
    cases op <;> rfl
  exact .of_alone single Comparison.showsOperand_single .refl

/-- Whatever stands in a shown place of a statement that was written is admitted. -/
theorem allAdmitted_of_yields {s : Statement} {sql : String}
    (yields : Yields (scope.statement s) sql) :
    Piece.AllAdmitted scope.grammar .statement s := by
  intro piece path part shown fill
  subst fill
  cases piece with
  | value =>
      rintro x rfl
      have writes : Writes (number x) (scope.statement (path.fill (.float x))) :=
        path.writes shown (writesValue_float x)
      obtain ⟨_, _, _, written, -⟩ := writes sql yields
      exact finite_of_yields written
  | condition =>
      intro op compares
      have writes : Writes (scope.predicate part) (scope.statement (path.fill part)) :=
        path.writes shown Writes.refl
      obtain ⟨_, _, _, written, -⟩ := writes sql yields
      exact bounds_of_yields written compares
  | statement =>
      have writes : Writes (scope.statement part) (scope.statement (path.fill part)) :=
        path.writes shown Writes.refl
      obtain ⟨_, _, _, written, -⟩ := writes sql yields
      exact admitted_of_yields written

/-- A member behind its keyword, in parentheses. -/
def parenthesizedText (scope : Scope) (m : UnionMember) : Render String := do
  let text ← scope.statement m.statement
  return (if m.all then " UNION ALL " else " UNION ") ++ "(" ++ text ++ ")"

/-- A member that has to stand apart does so. -/
theorem writes_parenthesizedText {m : UnionMember}
    (apart : m.statement.toHeader.standsApart = true) :
    Writes (scope.parenthesizedText m) (scope.memberText m) := by
  intro sql yields
  obtain ⟨text, member, yields⟩ := yields_bind yields
  obtain ⟨-, inner, ⟨trace, left, run⟩, rfl⟩ := yields_member member
  refine Encloses.of_yields ⟨trace, left, (Outcome.bind_of_ok run).trans ?_⟩
  rw [← yields_pure yields, if_pos apart]
  simp only [String.append_assoc]
  rfl

end Scope

namespace Statement

/-- Whether a statement is rendered does not depend on the trace, only on what it is made of. -/
theorem renders_iff (s : Statement) (g : Grammar) (trace : Trace) :
    (∃ sql left, s.sqlIn g trace = .ok sql left) ↔ Piece.AllAdmitted g .statement s := by
  constructor
  · rintro ⟨sql, left, run⟩
    exact Scope.allAdmitted_of_yields ⟨trace, left, run⟩
  · intro all
    exact Scope.accepts_statement s all trace

/-- The members of an admitted statement that selects are admitted. -/
theorem Admitted.member {s : Statement} {g : Grammar} (admitted : s.Admitted g)
    (kind : s.kind ∈ [.select, .random]) : ∀ m ∈ s.members, m.Admitted g := by
  unfold Admitted at admitted
  cases known : s.kind with
  | select =>
      rw [known] at admitted
      exact admitted.2.2
  | random =>
      rw [known] at admitted
      exact admitted.2
  | insert | update | delete | raw | undecided =>
      rw [known] at kind
      simp at kind

/-- A rendering that fails reports a fault of the rendering. -/
theorem toClass_of_render {s : Statement} {before after : Trace} {error : Error}
    (failed : s.render before = .error error after) : error.toClass = .compile := by
  have reported : answer (s.render before) = .error error := by
    rw [failed]
    rfl
  unfold render at reported
  rw [answer_render s.notify_ok] at reported
  cases run : answer (s.sql before) with
  | ok sql =>
      rw [run] at reported
      cases reported
  | error fault =>
      rw [run] at reported
      cases reported
      rfl

/--
When a statement is rendered, every statement that stands in a shown place has
its text there and has what its kind needs, every union member that has to
stand apart is in parentheses, and every number is finite.  When a rendering
fails it reports a compile error.
-/
theorem rendered_parts_are_valid (root : Statement) (g : Grammar) :
    (∀ sql, Yields (root.sqlIn g) sql →
      (∀ (path : Path .statement .statement) (s : Statement),
        path.isShown = true → path.fill s = root →
          Encloses ((root.scope g).statement s) sql ∧ s.Admitted g ∧
            (s.kind ∈ [.select, .random] → ∀ m ∈ s.members,
              m.statement.locked = false ∧ (m.statement.toHeader.standsApart = true →
                g ≠ .sqlite ∧ Encloses ((root.scope g).parenthesizedText m) sql))) ∧
        ∀ (path : Path .value .statement) (x : Double),
          path.isShown = true → path.fill (.float x) = root → x.isFinite = true) ∧
      ∀ before after error, root.render before = .error error after →
        error.toClass = .compile := by
  refine ⟨fun sql yields => ⟨fun path s shown fill => ?_, fun path x shown fill => ?_⟩,
    fun before after error failed => toClass_of_render failed⟩
  · have admitted : s.Admitted g := Scope.allAdmitted_of_yields yields .statement path s shown fill
    have enclosed {part : Render String}
        (writes : Scope.Writes part ((root.scope g).statement s)) : Encloses part sql := by
      have whole : Scope.Writes part ((root.scope g).statement (path.fill s)) :=
        path.writes shown writes
      rw [fill] at whole
      exact whole.encloses yields
    refine ⟨enclosed .refl, admitted, fun kind m mem => ?_⟩
    have member := admitted.member kind m mem
    refine ⟨member.unlocked, fun apart => ⟨?_, enclosed ?_⟩⟩
    · rintro rfl
      exact absurd (member.parenthesized apart) (by decide)
    · exact ((Scope.writes_parenthesizedText apart).trans (Scope.writes_memberText mem)).trans
        (Scope.writes_united kind .refl)
  · exact Scope.allAdmitted_of_yields yields .value path (.float x) shown fill x rfl

/-- A statement that takes a row at random. -/
def drawn : Statement :=
  { ({} : Config).selection with kind := .random, tables := [.text "b"] }

/-- A statement with a number in a condition, in a union with one that takes a row at random. -/
def drawing : Statement :=
  { ({} : Config).selection with
    tables := [.text "a"]
    predicates := [⟨"rank", .name "rank", some .atLeast, .float ⟨0x8000000000000000⟩, .and⟩]
    members := [⟨drawn, false⟩] }

/-- The way from the number outward. -/
def drawingNumber : Path .value .statement :=
  .step (.filter drawing [] []) (.step (.operand "rank" (.name "rank") .atLeast .and) .here)

theorem rendered_parts_are_valid_drawing :
    let sql := "SELECT * FROM `a` WHERE `rank` >= -0" ++
      " UNION (SELECT * FROM `b` ORDER BY RAND() LIMIT 1)"
    Yields (drawing.sqlIn .mysql) sql ∧ drawing.Admitted .mysql ∧
      Encloses ((drawing.scope .mysql).parenthesizedText ⟨drawn, false⟩) sql ∧
      (⟨0x8000000000000000⟩ : Double).isFinite = true := by
  intro sql
  have yields : Yields (drawing.sqlIn .mysql) sql := ⟨[], [], rfl⟩
  obtain ⟨rendered, -⟩ := rendered_parts_are_valid drawing .mysql
  obtain ⟨statements, numbers⟩ := rendered sql yields
  obtain ⟨-, admitted, members⟩ := statements .here drawing rfl rfl
  obtain ⟨-, apart⟩ := members List.mem_cons_self ⟨drawn, false⟩ List.mem_cons_self
  exact ⟨yields, admitted, (apart rfl).2, numbers drawingNumber _ rfl rfl⟩

end Statement

end SqlBuilder
