import SqlBuilder.Proofs.Admission

/-!
# What a written clause is made of

A clause that was written passed its checks, and its text holds the texts of
its parts.  Followed outward from a shown place, the text of a part stands in
the text of the whole statement.
-/

namespace SqlBuilder

open Factor

namespace Factor

section Steps

variable {α β : Type} {first run : Render α} {next : α → Render β} {a : α} {b : β}

theorem yields_bind (yields : Yields (first >>= next) b) :
    ∃ a, Yields first a ∧ Yields (next a) b := by
  obtain ⟨trace, left, run⟩ := yields
  obtain ⟨a, between, start, run⟩ := Outcome.bind_ok run
  exact ⟨a, ⟨trace, between, start⟩, between, left, run⟩

theorem yields_pure {c : α} (yields : Yields (pure a : Render α) c) : a = c := by
  obtain ⟨trace, left, run⟩ := yields
  exact (Outcome.pure_ok run).1

theorem not_yields_throw (fault : RenderFault) : ¬ Yields (throw fault : Render α) a := by
  rintro ⟨trace, left, run⟩
  cases run

/-- A check in front was passed. -/
theorem yields_guarded {fails : Prop} [Decidable fails] {fault : RenderFault}
    (yields : Yields (if fails then ((MonadExcept.throw fault : Render β) >>= fun _ => run)
      else run) a) : ¬ fails ∧ Yields run a := by
  by_cases failed : fails
  · rw [if_pos failed] at yields
    obtain ⟨_, none, -⟩ := yields_bind yields
    exact absurd none (not_yields_throw fault)
  · rw [if_neg failed] at yields
    exact ⟨failed, yields⟩

end Steps

/-- The part is written somewhere, and what it gives stands in the text. -/
def Encloses (part : Render String) (text : String) : Prop :=
  ∃ before inner after, Yields part inner ∧ text = before ++ inner ++ after

section Texts

variable {part : Render String} {text : String}

theorem Encloses.of_yields (yields : Yields part text) : Encloses part text :=
  ⟨"", text, "", yields, by simp⟩

theorem Encloses.append_left (front : String) (encloses : Encloses part text) :
    Encloses part (front ++ text) := by
  obtain ⟨before, inner, after, yields, rfl⟩ := encloses
  exact ⟨front ++ before, inner, after, yields, by simp only [String.append_assoc]⟩

theorem Encloses.append_right (back : String) (encloses : Encloses part text) :
    Encloses part (text ++ back) := by
  obtain ⟨before, inner, after, yields, rfl⟩ := encloses
  exact ⟨before, inner, after ++ back, yields, by simp only [String.append_assoc]⟩

/-- An entry stands in the joined text. -/
theorem Encloses.intercalate (separator : String) {texts : List String} (mem : text ∈ texts)
    (encloses : Encloses part text) : Encloses part (separator.intercalate texts) := by
  induction texts with
  | nil => cases mem
  | cons first others ih =>
      cases others with
      | nil =>
          rw [List.mem_singleton.mp mem] at encloses
          simpa only [String.intercalate_singleton] using encloses
      | cons second others =>
          rw [String.intercalate_cons_cons]
          rcases List.mem_cons.mp mem with rfl | mem
          · exact (encloses.append_right _).append_right _
          · exact (ih mem).append_left _

end Texts

end Factor

namespace Scope

/-- Whenever the whole is written, the part is written somewhere in it. -/
def Writes (part whole : Render String) : Prop :=
  ∀ sql, Yields whole sql → ∃ before text after, Yields part text ∧ sql = before ++ text ++ after

/-- Whenever the texts are written, the part is written in one of them. -/
def WritesAmong (part : Render String) (whole : Render (List String)) : Prop :=
  ∀ texts, Yields whole texts → ∃ text ∈ texts, Encloses part text

variable {scope : Scope} {h : Header} {part : Render String}

theorem Writes.encloses {whole : Render String} {sql : String} (writes : Writes part whole)
    (yields : Yields whole sql) : Encloses part sql :=
  writes sql yields

theorem Writes.refl : Writes part part :=
  fun _ yields => Encloses.of_yields yields

theorem Writes.trans {inner middle whole : Render String} (first : Writes inner middle)
    (second : Writes middle whole) : Writes inner whole := by
  intro sql yields
  obtain ⟨before, text, after, written, rfl⟩ := second sql yields
  exact ((first.encloses written).append_left before).append_right after

/-- What is written by each way in which a sequence goes on is written by the sequence. -/
theorem Writes.later {α : Type} {first : Render α} {next : α → Render String}
    (writes : ∀ a, Writes part (next a)) : Writes part (first >>= next) := by
  intro sql yields
  obtain ⟨a, -, yields⟩ := yields_bind yields
  exact writes a sql yields

/-- A text keeps what it holds when it is put into another. -/
theorem Writes.map {whole : Render String} {context : String → String}
    (writes : Writes part whole) (holds : ∀ {text}, Encloses part text →
      Encloses part (context text)) :
    Writes part (whole >>= fun text => pure (context text)) := by
  intro sql yields
  obtain ⟨text, written, yields⟩ := yields_bind yields
  rw [← yields_pure yields]
  exact holds (writes.encloses written)

theorem Writes.parentheses {whole : Render String} (writes : Writes part whole) :
    Writes part (whole >>= fun text => pure ("(" ++ text ++ ")")) :=
  writes.map fun encloses => (encloses.append_left "(").append_right ")"

theorem WritesAmong.commas {whole : Render (List String)} (writes : WritesAmong part whole) :
    Writes part (whole >>= fun texts => pure ("(" ++ ", ".intercalate texts ++ ")")) := by
  intro sql yields
  obtain ⟨texts, written, yields⟩ := yields_bind yields
  obtain ⟨text, mem, encloses⟩ := writes texts written
  rw [← yields_pure yields]
  exact ((encloses.intercalate ", " mem).append_left "(").append_right ")"

/-! ## Clauses -/

theorem writes_clause {keyword : String} {rest : Render String} (writes : Writes part rest) :
    Writes part (clause keyword false rest) :=
  writes.map fun encloses => encloses.append_left keyword

theorem yields_body {joins wheres : Render String} {sql : String}
    (yields : Yields (scope.body h joins wheres) sql) :
    ∃ tables joined filtered groups, Yields joins joined ∧ Yields wheres filtered ∧
      sql = tables ++ joined ++ filtered ++ groups := by
  obtain ⟨tables, -, yields⟩ := yields_bind yields
  obtain ⟨joined, first, yields⟩ := yields_bind yields
  obtain ⟨filtered, second, yields⟩ := yields_bind yields
  obtain ⟨groups, -, yields⟩ := yields_bind yields
  exact ⟨tables, joined, filtered, groups, first, second, (yields_pure yields).symm⟩

theorem nonNegative_of_yields {count : Count} {n : Option Int64} {limit : Option Nat}
    (yields : Yields (count.check n) limit) : NonNegative n := by
  rintro m rfl
  refine Int.not_lt.mp fun negative => ?_
  simp only [Count.check, negative, if_true] at yields
  exact not_yields_throw _ yields

section Select

variable (scope : Scope) (h : Header) (limit offset : Option Nat)

/-- A statement that selects, without its union and without its ending. -/
def core (joins wheres : Render String) : Render String := do
  let columns ← scope.columns h
  let body ← scope.body h joins wheres
  return "SELECT" ++ (if h.distinct then " DISTINCT" else "") ++
    spaced (scope.grammar.selectTop limit offset) ++ " " ++ columns ++ body

/-- What ends a statement that selects, behind its union. -/
def ending : Render String := do
  let order ← scope.order h
  return order ++ scope.pagination limit offset h.isOrdered ++ scope.lockSuffix h

variable {scope h}

/-- A statement that selects is written in three parts, its union in the middle. -/
theorem select_eq (joins wheres members : Render String) :
    scope.select h joins wheres members = do
      let limit ← h.selectLimit
      let offset ← Count.offset.check h.offset
      let first ← scope.core h limit offset joins wheres
      let others ← members
      let last ← scope.ending h limit offset
      return first ++ others ++ last := by
  simp only [select, core, ending, bind_assoc, pure_bind, String.append_assoc]

end Select

/-- A statement that selects has valid counts, and writes its body and its union. -/
theorem yields_select {joins wheres members : Render String} {sql : String}
    (yields : Yields (scope.select h joins wheres members) sql) :
    (h.isRandom = false → NonNegative h.limit) ∧ NonNegative h.offset ∧
      ∃ front body united back, Yields (scope.body h joins wheres) body ∧
        Yields members united ∧ sql = front ++ body ++ united ++ back := by
  obtain ⟨limit, limited, yields⟩ := yields_bind yields
  obtain ⟨offset, skipped, yields⟩ := yields_bind yields
  obtain ⟨columns, -, yields⟩ := yields_bind yields
  obtain ⟨body, written, yields⟩ := yields_bind yields
  obtain ⟨united, others, yields⟩ := yields_bind yields
  obtain ⟨order, -, yields⟩ := yields_bind yields
  refine ⟨?_, nonNegative_of_yields skipped,
    "SELECT" ++ (if h.distinct then " DISTINCT" else "") ++
      spaced (scope.grammar.selectTop limit offset) ++ " " ++ columns, body, united,
    order ++ scope.pagination limit offset h.isOrdered ++ scope.lockSuffix h, written, others, ?_⟩
  · intro plain
    simp only [Header.selectLimit, plain, Bool.false_eq_true, if_false] at limited
    exact nonNegative_of_yields limited
  · rw [← yields_pure yields]
    simp only [String.append_assoc]

/-- A member in any form, with what parentheses are in that form. -/
def memberWith {α : Type} (scope : Scope) (h : Header) (parenthesized : α → α)
    (statement : Render α) : Render α := do
  if h.locked then throw .lockedMember
  let inner ← statement
  if !h.standsApart then return inner
  else if scope.grammar.parenthesizesMembers then return parenthesized inner
  else throw (.boundedMember scope.grammar.name)

/-- A member locks no rows, and is in parentheses if it has to stand apart. -/
theorem yields_memberWith {α : Type} {m : UnionMember} {parenthesized : α → α}
    {statement : Render α} {whole : α}
    (yields : Yields (scope.memberWith m.statement.toHeader parenthesized statement) whole) :
    m.Admitted scope.grammar ∧ ∃ inner, Yields statement inner ∧
      whole = if m.statement.toHeader.standsApart then parenthesized inner else inner := by
  obtain ⟨unlocked, yields⟩ := yields_guarded yields
  obtain ⟨inner, written, yields⟩ := yields_bind yields
  cases apart : m.statement.toHeader.standsApart with
  | false =>
      rw [apart] at yields
      refine ⟨⟨by simpa using unlocked, fun other => ?_⟩, inner, written, ?_⟩
      · rw [apart] at other
        cases other
      · exact (yields_pure yields).symm
  | true =>
      rw [apart] at yields
      cases parentheses : scope.grammar.parenthesizesMembers with
      | false =>
          rw [parentheses] at yields
          exact absurd yields (not_yields_throw _)
      | true =>
          rw [parentheses] at yields
          exact ⟨⟨by simpa using unlocked, fun _ => parentheses⟩, inner, written,
            (yields_pure yields).symm⟩

theorem yields_member {m : UnionMember} {statement : Render String} {sql : String}
    (yields : Yields (scope.member m.statement.toHeader statement) sql) :
    m.Admitted scope.grammar ∧ ∃ text, Yields statement text ∧
      sql = if m.statement.toHeader.standsApart then "(" ++ text ++ ")" else text :=
  yields_memberWith yields

/-- A statement that inserts has a target and rows, and writes the rows. -/
theorem yields_insert {hasRows : Bool} {rows : Render (List String)} {sql : String}
    (yields : Yields (scope.insert h hasRows rows) sql) :
    h.target ≠ none ∧ hasRows = true ∧
      ∃ front texts, Yields rows texts ∧ sql = front ++ ", ".intercalate texts := by
  obtain ⟨target, named, yields⟩ := yields_bind yields
  obtain ⟨nonempty, yields⟩ := yields_guarded yields
  obtain ⟨texts, written, yields⟩ := yields_bind yields
  obtain ⟨table, -, yields⟩ := yields_bind yields
  obtain ⟨columns, -, yields⟩ := yields_bind yields
  refine ⟨fun none => ?_, by simpa using nonempty, _, texts, written, (yields_pure yields).symm⟩
  rw [insertTarget, none] at named
  exact not_yields_throw _ named

/-- What ends a write was checked against the grammar. -/
theorem endsWrite_of_yields {kind : WriteKind} {sql : String}
    (yields : Yields (scope.writeTail h kind) sql) : h.EndsWrite scope.grammar := by
  obtain ⟨limit, limited, yields⟩ := yields_bind yields
  have valid := nonNegative_of_yields limited
  cases bounded : h.isBounded with
  | false =>
      simp only [Header.isBounded, Bool.or_eq_false_iff, Bool.not_eq_false',
        List.isEmpty_iff, Option.isSome_eq_false_iff, Option.isNone_iff_eq_none] at bounded
      obtain ⟨⟨orders, limit⟩, offset⟩ := bounded
      refine ⟨valid, offset, fun given => ?_⟩
      exact given.elim (absurd orders) (absurd limit)
  | true =>
      rw [bounded] at yields
      obtain ⟨allowed, yields⟩ := yields_guarded yields
      obtain ⟨offset, -⟩ := yields_guarded yields
      exact ⟨valid, by simpa using offset, fun _ => by simpa using allowed⟩

theorem unjoined_of_yields {kind : WriteKind} {hasJoins : Bool} {done : Unit}
    (yields : Yields (checkJoins kind hasJoins) done) : hasJoins = false := by
  cases hasJoins with
  | false => rfl
  | true => exact absurd yields (not_yields_throw _)

/-- A statement that updates has a table and assignments, and writes them with its conditions. -/
theorem yields_update {hasJoins hasAssignments : Bool} {assignments : Render (List String)}
    {wheres : Render String} {sql : String}
    (yields : Yields (scope.update h hasJoins hasAssignments assignments wheres) sql) :
    hasJoins = false ∧ (h.updateTables ≠ [] ∨ h.target ≠ none) ∧ hasAssignments = true ∧
      h.EndsWrite scope.grammar ∧ ∃ front texts filtered back, Yields assignments texts ∧
        Yields wheres filtered ∧ sql = front ++ ", ".intercalate texts ++ filtered ++ back := by
  obtain ⟨_, unjoined, yields⟩ := yields_bind yields
  obtain ⟨tables, named, yields⟩ := yields_bind yields
  obtain ⟨nonempty, yields⟩ := yields_guarded yields
  obtain ⟨texts, assigned, yields⟩ := yields_bind yields
  obtain ⟨filtered, written, yields⟩ := yields_bind yields
  obtain ⟨tail, ended, yields⟩ := yields_bind yields
  refine ⟨unjoined_of_yields unjoined, ?_, by simpa using nonempty, endsWrite_of_yields ended,
    "UPDATE " ++ tables ++ " SET ", texts, filtered, tail, assigned, written,
    (yields_pure yields).symm⟩
  by_cases listed : h.updateTables = []
  · refine Or.inr fun none => ?_
    rw [updateTables, listed, none] at named
    exact not_yields_throw _ named
  · exact Or.inl listed

/-- A statement that deletes has a table, and writes its conditions. -/
theorem yields_delete {hasJoins : Bool} {wheres : Render String} {sql : String}
    (yields : Yields (scope.delete h hasJoins wheres) sql) :
    hasJoins = false ∧ (h.target ≠ none ∨ h.tables ≠ []) ∧ h.EndsWrite scope.grammar ∧
      ∃ front filtered back, Yields wheres filtered ∧ sql = front ++ filtered ++ back := by
  obtain ⟨_, unjoined, yields⟩ := yields_bind yields
  obtain ⟨table, named, yields⟩ := yields_bind yields
  obtain ⟨filtered, written, yields⟩ := yields_bind yields
  obtain ⟨tail, ended, yields⟩ := yields_bind yields
  refine ⟨unjoined_of_yields unjoined, ?_, endsWrite_of_yields ended, "DELETE FROM " ++ table,
    filtered, tail, written, (yields_pure yields).symm⟩
  by_cases target : h.target = none
  · refine Or.inr fun none => ?_
    rw [deleteTable, target, none] at named
    exact not_yields_throw _ named
  · exact Or.inl target

/-! ## Lists of parts -/

theorem writesAmong_values {v : Value} {items : List Value} (mem : v ∈ items)
    (writes : Writes part (scope.value v)) : WritesAmong part (scope.values items) := by
  induction items with
  | nil => cases mem
  | cons item items ih =>
      intro texts yields
      obtain ⟨text, written, yields⟩ := yields_bind yields
      obtain ⟨others, rest, yields⟩ := yields_bind yields
      rw [← yields_pure yields]
      rcases List.mem_cons.mp mem with rfl | mem
      · exact ⟨text, List.mem_cons_self, writes.encloses written⟩
      · obtain ⟨entry, inOthers, encloses⟩ := ih mem others rest
        exact ⟨entry, List.mem_cons_of_mem text inOthers, encloses⟩

theorem writes_furtherConditions {p : Predicate} {ps : List Predicate} (mem : p ∈ ps)
    (writes : Writes part (scope.predicate p)) : Writes part (scope.furtherConditions ps) := by
  induction ps with
  | nil => cases mem
  | cons first ps ih =>
      intro sql yields
      obtain ⟨text, written, yields⟩ := yields_bind yields
      obtain ⟨others, rest, yields⟩ := yields_bind yields
      rw [← yields_pure yields]
      rcases List.mem_cons.mp mem with rfl | mem
      · exact ((writes.encloses written).append_left _).append_right others
      · exact ((ih mem).encloses rest).append_left _

theorem writes_conditions {p : Predicate} {ps : List Predicate} (mem : p ∈ ps)
    (writes : Writes part (scope.predicate p)) : Writes part (scope.conditions ps) := by
  intro sql yields
  cases ps with
  | nil => cases mem
  | cons first ps =>
      obtain ⟨text, written, yields⟩ := yields_bind yields
      obtain ⟨others, rest, yields⟩ := yields_bind yields
      rw [← yields_pure yields]
      rcases List.mem_cons.mp mem with rfl | mem
      · exact (writes.encloses written).append_right others
      · exact ((writes_furtherConditions mem writes).encloses rest).append_left text

/-- Conditions behind a keyword are written if there are any. -/
theorem writes_conditionClause {keyword : String} {p : Predicate} {ps : List Predicate}
    (mem : p ∈ ps) (writes : Writes part (scope.predicate p)) :
    Writes part (clause keyword ps.isEmpty (scope.conditions ps)) := by
  have nonempty : ps.isEmpty = false := List.isEmpty_eq_false_iff.mpr (List.ne_nil_of_mem mem)
  rw [nonempty]
  exact writes_clause (writes_conditions mem writes)

theorem writes_joins {join : Join} {p : Predicate} {js : List Join} (outer : join ∈ js)
    (mem : p ∈ join.predicates) (writes : Writes part (scope.predicate p)) :
    Writes part (scope.joins js) := by
  induction js with
  | nil => cases outer
  | cons first js ih =>
      intro sql yields
      obtain ⟨kind, table, ps⟩ := first
      obtain ⟨target, -, yields⟩ := yields_bind yields
      obtain ⟨on, written, yields⟩ := yields_bind yields
      obtain ⟨others, rest, yields⟩ := yields_bind yields
      rw [← yields_pure yields]
      rcases List.mem_cons.mp outer with rfl | outer
      · have on := (writes_conditionClause mem writes).encloses written
        exact (on.append_left _).append_right others
      · exact ((ih outer).encloses rest).append_left _

/-- Rows were written, so each has a field for each named column. -/
theorem yields_rows {columns index : Nat} {rs : List (List Value)} {texts : List String}
    (yields : Yields (scope.rows columns index rs) texts) :
    (columns ≠ 0 → ∀ row ∈ rs, row.length = columns) ∧
      ∀ row ∈ rs, ∃ fields, Yields (scope.values row) fields ∧
        "(" ++ ", ".intercalate fields ++ ")" ∈ texts := by
  induction rs generalizing index texts with
  | nil => exact ⟨fun _ _ mem => (nomatch mem), fun _ mem => (nomatch mem)⟩
  | cons first rs ih =>
      obtain ⟨_, checked, yields⟩ := yields_bind yields
      obtain ⟨fields, written, yields⟩ := yields_bind yields
      obtain ⟨others, rest, yields⟩ := yields_bind yields
      obtain ⟨width, each⟩ := ih rest
      rw [← yields_pure yields]
      refine ⟨fun named row mem => ?_, fun row mem => ?_⟩
      · rcases List.mem_cons.mp mem with rfl | mem
        · refine Decidable.byContradiction fun other => ?_
          rw [checkWidth, if_pos ⟨named, other⟩] at checked
          exact not_yields_throw _ checked
        · exact width named row mem
      · rcases List.mem_cons.mp mem with rfl | mem
        · exact ⟨fields, written, List.mem_cons_self⟩
        · obtain ⟨fields, written, inOthers⟩ := each row mem
          exact ⟨fields, written, List.mem_cons_of_mem _ inOthers⟩

theorem writesAmong_rows {columns index : Nat} {row : List Value} {v : Value}
    {rs : List (List Value)} (outer : row ∈ rs) (mem : v ∈ row)
    (writes : Writes part (scope.value v)) : WritesAmong part (scope.rows columns index rs) := by
  intro texts yields
  obtain ⟨-, each⟩ := yields_rows yields
  obtain ⟨fields, written, inTexts⟩ := each row outer
  obtain ⟨field, inFields, encloses⟩ := writesAmong_values mem writes fields written
  exact ⟨_, inTexts, ((encloses.intercalate ", " inFields).append_left "(").append_right ")"⟩

theorem writesAmong_assignments {a : Assignment} {as : List Assignment} (mem : a ∈ as)
    (writes : Writes part (scope.value a.value)) : WritesAmong part (scope.assignments as) := by
  induction as with
  | nil => cases mem
  | cons first as ih =>
      intro texts yields
      obtain ⟨key, column, operand⟩ := first
      obtain ⟨target, -, yields⟩ := yields_bind yields
      obtain ⟨text, written, yields⟩ := yields_bind yields
      obtain ⟨others, rest, yields⟩ := yields_bind yields
      rw [← yields_pure yields]
      rcases List.mem_cons.mp mem with rfl | mem
      · exact ⟨_, List.mem_cons_self, (writes.encloses written).append_left _⟩
      · obtain ⟨entry, inOthers, encloses⟩ := ih mem others rest
        exact ⟨entry, List.mem_cons_of_mem _ inOthers, encloses⟩

/-- A member with the keyword in front of it. -/
def memberText (scope : Scope) (m : UnionMember) : Render String := do
  let text ← scope.member m.statement.toHeader (scope.statement m.statement)
  return (if m.all then " UNION ALL " else " UNION ") ++ text

theorem writes_memberText {m : UnionMember} {ms : List UnionMember} (mem : m ∈ ms) :
    Writes (scope.memberText m) (scope.members ms) := by
  induction ms with
  | nil => cases mem
  | cons first ms ih =>
      intro sql yields
      obtain ⟨i, keepAll⟩ := first
      obtain ⟨text, ⟨trace, left, run⟩, yields⟩ := yields_bind yields
      obtain ⟨others, rest, yields⟩ := yields_bind yields
      rw [← yields_pure yields]
      rcases List.mem_cons.mp mem with rfl | mem
      · refine Encloses.append_right others (Encloses.of_yields ⟨trace, left, ?_⟩)
        exact Outcome.bind_of_ok run
      · exact ((ih mem).encloses rest).append_left _

/-! ## Statements by kind -/

section Kinds

variable {joins wheres members : Render String}

theorem writes_body_joins (writes : Writes part joins) :
    Writes part (scope.body h joins wheres) := by
  intro sql yields
  obtain ⟨tables, joined, filtered, groups, written, -, rfl⟩ := yields_body yields
  exact (((writes.encloses written).append_left tables).append_right filtered).append_right groups

theorem writes_body_wheres (writes : Writes part wheres) :
    Writes part (scope.body h joins wheres) := by
  intro sql yields
  obtain ⟨tables, joined, filtered, groups, -, written, rfl⟩ := yields_body yields
  exact ((writes.encloses written).append_left (tables ++ joined)).append_right groups

theorem writes_select_body (writes : Writes part (scope.body h joins wheres)) :
    Writes part (scope.select h joins wheres members) := by
  intro sql yields
  obtain ⟨-, -, front, body, united, back, written, -, rfl⟩ := yields_select yields
  exact (((writes.encloses written).append_left front).append_right united).append_right back

theorem writes_select_members (writes : Writes part members) :
    Writes part (scope.select h joins wheres members) := by
  intro sql yields
  obtain ⟨-, -, front, body, united, back, -, written, rfl⟩ := yields_select yields
  exact ((writes.encloses written).append_left (front ++ body)).append_right back

theorem writes_insert {hasRows : Bool} {rows : Render (List String)}
    (writes : WritesAmong part rows) : Writes part (scope.insert h hasRows rows) := by
  intro sql yields
  obtain ⟨-, -, front, texts, written, rfl⟩ := yields_insert yields
  obtain ⟨text, mem, encloses⟩ := writes texts written
  exact (encloses.intercalate ", " mem).append_left front

variable {hasJoins hasAssignments : Bool} {assignments : Render (List String)}

theorem writes_update_assignments (writes : WritesAmong part assignments) :
    Writes part (scope.update h hasJoins hasAssignments assignments wheres) := by
  intro sql yields
  obtain ⟨-, -, -, -, front, texts, filtered, back, written, -, rfl⟩ := yields_update yields
  obtain ⟨text, mem, encloses⟩ := writes texts written
  exact (((encloses.intercalate ", " mem).append_left front).append_right filtered).append_right
    back

theorem writes_update_wheres (writes : Writes part wheres) :
    Writes part (scope.update h hasJoins hasAssignments assignments wheres) := by
  intro sql yields
  obtain ⟨-, -, -, -, front, texts, filtered, back, -, written, rfl⟩ := yields_update yields
  exact ((writes.encloses written).append_left (front ++ ", ".intercalate texts)).append_right back

theorem writes_delete (writes : Writes part wheres) :
    Writes part (scope.delete h hasJoins wheres) := by
  intro sql yields
  obtain ⟨-, -, -, front, filtered, back, written, rfl⟩ := yields_delete yields
  exact ((writes.encloses written).append_left front).append_right back

end Kinds

/-- A statement that selects, updates or deletes writes its conditions. -/
theorem writes_wheres {s : Statement} (kind : s.kind ∈ [.select, .random, .update, .delete])
    (writes : Writes part (scope.wheres s)) : Writes part (scope.statement s) := by
  rw [statement_eq]
  cases known : s.kind with
  | select | random => exact writes_select_body (writes_body_wheres writes)
  | update => exact writes_update_wheres writes
  | delete => exact writes_delete writes
  | insert | raw | undecided =>
      rw [known] at kind
      simp at kind

/-- A statement that selects is written with its joins, its conditions and its union. -/
theorem statement_of_selects {s : Statement} (kind : s.kind ∈ [.select, .random]) :
    scope.statement s = scope.select s.toHeader (scope.joins s.joins) (scope.wheres s)
      (scope.members s.members) := by
  rw [statement_eq]
  cases known : s.kind with
  | select | random => rfl
  | insert | update | delete | raw | undecided =>
      rw [known] at kind
      simp at kind

/-- A statement that selects writes its joins. -/
theorem writes_joined {s : Statement} (kind : s.kind ∈ [.select, .random])
    (writes : Writes part (scope.joins s.joins)) : Writes part (scope.statement s) := by
  rw [statement_of_selects kind]
  exact writes_select_body (writes_body_joins writes)

/-- A statement that selects writes the members of its union. -/
theorem writes_united {s : Statement} (kind : s.kind ∈ [.select, .random])
    (writes : Writes part (scope.members s.members)) : Writes part (scope.statement s) := by
  rw [statement_of_selects kind]
  exact writes_select_members writes

/-- A member writes what its statement writes. -/
theorem writes_member {m : UnionMember} (writes : Writes part (scope.statement m.statement)) :
    Writes part (scope.memberText m) := by
  intro sql yields
  obtain ⟨text, written, yields⟩ := yields_bind yields
  obtain ⟨-, inner, stated, rfl⟩ := yields_member written
  rw [← yields_pure yields]
  refine Encloses.append_left _ ?_
  split
  · exact ((writes.encloses stated).append_left "(").append_right ")"
  · exact writes.encloses stated

end Scope

/-! ## From a place outward -/

theorem Comparison.writes_operand {form : Comparison} (shows : form.showsOperand = true)
    {part operand : Render String} {entries : Render (List String)} {column operator : String}
    (writes : Scope.Writes part operand) :
    Scope.Writes part (form.write column operator operand entries) := by
  cases form with
  | among => exact writes.map fun encloses => encloses.append_left _
  | amongMarked => exact writes.map fun encloses => (encloses.append_left _).append_right ")"
  | plain => exact writes.map fun encloses => encloses.append_left _
  | badBetween => exact fun _ yields => absurd yields (not_yields_throw _)
  | isNull | isNotNull | never | between => cases shows

theorem Comparison.writes_bounds {part operand : Render String} {entries : Render (List String)}
    {column operator : String} (writes : Scope.WritesAmong part entries) :
    Scope.Writes part (Comparison.between.write column operator operand entries) := by
  intro sql yields
  obtain ⟨texts, written, yields⟩ := yields_bind yields
  obtain ⟨text, mem, encloses⟩ := writes texts written
  rw [← yields_pure yields]
  exact (encloses.intercalate " AND " mem).append_left _

section Places

variable (scope : Scope) (part : Render String)

/-- The part is written wherever the value is, alone and in comparisons. -/
structure WritesValue (v : Value) : Prop where
  alone : Scope.Writes part (scope.value v)
  compared : ∀ op column operator, Scope.Writes part
    ((Comparison.of op v).write column operator (scope.value v) (scope.entries v))

/-- The part is written wherever the content of the piece is. -/
def WritesIn : (piece : Piece) → piece.Content → Prop
  | .value, v => WritesValue scope part v
  | .condition, p => Scope.Writes part (scope.predicate p)
  | .statement, s => Scope.Writes part (scope.statement s)

variable {scope part}

theorem WritesValue.of_alone {v : Value} {form : Operator → Comparison}
    (same : ∀ op, Comparison.of op v = form op) (shows : ∀ op, (form op).showsOperand = true)
    (alone : Scope.Writes part (scope.value v)) : WritesValue scope part v := by
  refine ⟨alone, fun op column operator => ?_⟩
  rw [same]
  exact Comparison.writes_operand (shows op) alone

theorem WritesValue.item {v : Value} (inner : WritesValue scope part v)
    (before after : List Value) : WritesValue scope part (.list (before ++ v :: after)) := by
  have mem : v ∈ before ++ v :: after := List.mem_append_right before List.mem_cons_self
  have entries := Scope.writesAmong_values mem inner.alone
  refine ⟨entries.commas, fun op column operator => ?_⟩
  rcases Comparison.shows_item op before v after with shows | between
  · exact Comparison.writes_operand shows entries.commas
  · rw [between]
    exact Comparison.writes_bounds entries

theorem WritesValue.group {p : Predicate} (inner : Scope.Writes part (scope.predicate p))
    (tag : Nat) (s : Statement) (before after : List Predicate) :
    WritesValue scope part (.group tag { s with predicates := before ++ p :: after }) := by
  have mem : p ∈ before ++ p :: after := List.mem_append_right before List.mem_cons_self
  exact .of_alone (fun op => Comparison.of_group op tag _) Comparison.showsOperand_single
    (Scope.writes_conditions mem inner).parentheses

/-- What is written in a piece is written around it. -/
theorem Frame.writes {a b : Piece} (frame : Frame a b) (shown : frame.isShown = true)
    {content : a.Content} (inner : WritesIn scope part a content) :
    WritesIn scope part b (frame.fill content) := by
  cases frame with
  | operand key column op connective =>
      exact Scope.Writes.later fun name => inner.compared op name _
  | item before after => exact inner.item before after
  | subquery tag =>
      exact .of_alone (fun op => Comparison.of_query op tag content)
        Comparison.showsOperand_single (Scope.Writes.parentheses inner)
  | group tag s before after => exact .group inner tag s before after
  | nested key column connective tag s before after =>
      exact (WritesValue.group inner tag s before after).alone
  | filter s before after =>
      have mem : content ∈ before ++ content :: after :=
        List.mem_append_right before List.mem_cons_self
      exact Scope.writes_wheres (List.contains_iff_mem.mp shown)
        (Scope.writes_conditionClause mem inner)
  | on s front kind table before after back =>
      have mem : content ∈ before ++ content :: after :=
        List.mem_append_right before List.mem_cons_self
      exact Scope.writes_joined (List.contains_iff_mem.mp shown)
        (Scope.writes_joins (List.mem_append_right front List.mem_cons_self) mem inner)
  | field s front before after back =>
      have mem : content ∈ before ++ content :: after :=
        List.mem_append_right before List.mem_cons_self
      have kind : s.kind = .insert := of_decide_eq_true shown
      simp only [WritesIn, statement_eq, fill, kind]
      exact Scope.writes_insert (Scope.writesAmong_rows
        (List.mem_append_right front List.mem_cons_self) mem inner.alone)
  | assigned s before key column after =>
      have kind : s.kind = .update := of_decide_eq_true shown
      simp only [WritesIn, statement_eq, fill, kind]
      exact Scope.writes_update_assignments (Scope.writesAmong_assignments
        (List.mem_append_right before List.mem_cons_self) inner.alone)
  | member s before keepAll after =>
      have mem : (⟨content, keepAll⟩ : UnionMember) ∈ before ++ ⟨content, keepAll⟩ :: after :=
        List.mem_append_right before List.mem_cons_self
      have member := Scope.writes_member (m := ⟨content, keepAll⟩) inner
      exact Scope.writes_united (List.contains_iff_mem.mp shown)
        (member.trans (Scope.writes_memberText mem))

/-- What is written in a shown place is written in the whole. -/
theorem Path.writes {a b : Piece} (path : Path a b) (shown : path.isShown = true)
    {content : a.Content} (inner : WritesIn scope part a content) :
    WritesIn scope part b (path.fill content) := by
  induction path with
  | here => exact inner
  | step outer path ih =>
      simp only [isShown, Bool.and_eq_true] at shown
      exact outer.writes shown.1 (ih shown.2)

end Places

end SqlBuilder
