import SqlBuilder.Proofs.Rendering

/-!
# Shown places are written

A family of values that stand in one place is followed outward.  Each part
around the place renders to a text with the text of the value in it, and all
else in that text is the same for the whole family.
-/

namespace SqlBuilder

open Factor

namespace Comparison

/-- The form shows the operand itself, or fails. -/
def showsOperand : Comparison → Bool
  | .among | .amongMarked | .plain | .badBetween => true
  | .isNull | .isNotNull | .never | .between => false

/-- The form of a comparison with a single value. -/
def single : Operator → Comparison
  | .between => .badBetween
  | _ => .plain

/-- The form of a comparison with a parameter. -/
def marked : Operator → Comparison
  | .isIn => .amongMarked
  | op => single op

theorem showsOperand_single (op : Operator) : (single op).showsOperand = true := by
  cases op <;> rfl

theorem showsOperand_marked (op : Operator) : (marked op).showsOperand = true := by
  cases op <;> rfl

theorem of_text (op : Operator) (s : String) : Comparison.of op (.text s) = single op := by
  cases op <;> rfl

theorem of_parameter (op : Operator) (name : String) :
    Comparison.of op (.parameter name) = marked op := by
  cases op <;> rfl

theorem of_query (op : Operator) (tag : Nat) (s : Statement) :
    Comparison.of op (.query tag s) = single op := by
  cases op <;> rfl

theorem of_group (op : Operator) (tag : Nat) (s : Statement) :
    Comparison.of op (.group tag s) = single op := by
  cases op <;> rfl

/-- The form does not depend on what an entry of a list is. -/
theorem of_item (op : Operator) (before : List Value) (left right : Value) (after : List Value) :
    Comparison.of op (.list (before ++ left :: after)) =
      Comparison.of op (.list (before ++ right :: after)) := by
  cases op with
  | isIn => cases before <;> rfl
  | between =>
      rcases before with _ | ⟨first, _ | ⟨second, others⟩⟩
      · rcases after with _ | ⟨second, _ | ⟨third, others⟩⟩ <;> rfl
      · cases after <;> rfl
      · cases others <;> rfl
  | _ => rfl

/-- A list with an entry is written as a list or as two bounds. -/
theorem shows_item (op : Operator) (before : List Value) (item : Value) (after : List Value) :
    (Comparison.of op (.list (before ++ item :: after))).showsOperand = true ∨
      Comparison.of op (.list (before ++ item :: after)) = .between := by
  cases op with
  | isIn => cases before <;> exact Or.inl rfl
  | between =>
      rcases before with _ | ⟨first, _ | ⟨second, others⟩⟩
      · rcases after with _ | ⟨second, _ | ⟨third, others⟩⟩
        · exact Or.inl rfl
        · exact Or.inr rfl
        · exact Or.inl rfl
      · cases after with
        | nil => exact Or.inr rfl
        | cons second others => exact Or.inl rfl
      · cases others <;> exact Or.inl rfl
  | _ => exact Or.inl rfl

theorem factors_write {α : Type} {text : α → String} {operand : α → Render String}
    {entries : α → Render (List String)} {form : Comparison} (shows : form.showsOperand = true)
    (inner : Factors Around text operand) (column operator : String) :
    Factors Around text fun a => form.write column operator (operand a) (entries a) := by
  cases form with
  | among =>
      apply Factors.bind inner
      intro context around
      exact Factors.done (around_append_left _ around)
  | amongMarked =>
      apply Factors.bind inner
      intro context around
      exact Factors.done (around_append_right (around_append_left _ around)
        endsLiteral_parenthesis)
  | plain =>
      apply Factors.bind inner
      intro context around
      exact Factors.done (around_append_left _ around)
  | badBetween => exact Factors.throw _
  | isNull | isNotNull | never | between => cases shows

theorem factors_write_between {α : Type} {text : α → String} {operand : α → Render String}
    {entries : α → Render (List String)} (inner : Factors Among text entries)
    (column operator : String) :
    Factors Around text fun a =>
      Comparison.between.write column operator (operand a) (entries a) := by
  apply Factors.bind inner
  intro context among
  exact Factors.done (around_append_left _
    (around_intercalate " AND " (c := ' ') rfl (by decide) among))

end Comparison

/-! ## Families of parts -/

section Families

variable {α : Type} (scope : Scope) (text : α → String)

/-- The values are written around their texts, alone and in comparisons. -/
structure ShowsValue (v : α → Value) : Prop where
  alone : Factors Around text fun a => scope.value (v a)
  compared : ∀ op column operator, Factors Around text fun a =>
    (Comparison.of op (v a)).write column operator (scope.value (v a)) (scope.entries (v a))

/-- The conditions are written around the texts, behind one and the same connective. -/
structure ShowsCondition (p : α → Predicate) : Prop where
  written : Factors Around text fun a => scope.predicate (p a)
  joined : ∃ connective, ∀ a, (p a).connective = connective

/-- The statements are written around the texts, and have one and the same header. -/
structure ShowsStatement (s : α → Statement) : Prop where
  written : Factors Around text fun a => scope.statement (s a)
  header : ∃ h, ∀ a, (s a).toHeader = h

/-- The parts are written around the texts. -/
def Shows : (piece : Piece) → (α → piece.Content) → Prop
  | .value, v => ShowsValue scope text v
  | .condition, p => ShowsCondition scope text p
  | .statement, s => ShowsStatement scope text s

end Families

section Steps

variable {α : Type} {scope : Scope} {text : α → String}

/-- A value that is compared in one form by each operator is shown if it is written. -/
theorem ShowsValue.of_alone {v : α → Value} {form : Operator → Comparison}
    (same : ∀ op a, Comparison.of op (v a) = form op) (shows : ∀ op, (form op).showsOperand = true)
    (alone : Factors Around text fun a => scope.value (v a)) : ShowsValue scope text v := by
  refine ⟨alone, fun op column operator => ?_⟩
  simp only [same]
  exact Comparison.factors_write (shows op) alone column operator

theorem showsValue_text : ShowsValue scope scope.literal Value.text := by
  have alone : Factors Around scope.literal fun s => (pure (scope.literal s) : Render String) :=
    Factors.place around_self
  exact ShowsValue.of_alone Comparison.of_text Comparison.showsOperand_single alone

theorem showsValue_parameter : ShowsValue scope scope.marker Value.parameter := by
  have alone : Factors Around scope.marker fun name => (pure (scope.marker name) : Render String) :=
    Factors.place around_self
  exact ShowsValue.of_alone Comparison.of_parameter Comparison.showsOperand_marked alone

/-! ## One step outward -/

theorem ShowsValue.item {v : α → Value} (inner : ShowsValue scope text v)
    (before after : List Value) :
    ShowsValue scope text fun a => .list (before ++ v a :: after) := by
  have entries := Scope.factors_values inner.alone before after
  have alone : Factors Around text fun a => scope.value (.list (before ++ v a :: after)) := by
    apply Factors.bind entries
    intro context among
    exact Factors.done (around_parentheses (around_commas among))
  refine ⟨alone, fun op column operator => ?_⟩
  have same (a : α) := Comparison.of_item op before (v a) .null after
  simp only [same]
  rcases Comparison.shows_item op before .null after with shows | between
  · exact Comparison.factors_write shows alone column operator
  · rw [between]
    exact Comparison.factors_write_between entries column operator

theorem ShowsValue.query {s : α → Statement} (inner : ShowsStatement scope text s) (tag : Nat) :
    ShowsValue scope text fun a => .query tag (s a) := by
  refine ShowsValue.of_alone (fun op a => Comparison.of_query op tag (s a))
    Comparison.showsOperand_single ?_
  apply Factors.bind inner.written
  intro context around
  exact Factors.done (around_parentheses around)

theorem ShowsValue.group {p : α → Predicate} (inner : ShowsCondition scope text p) (tag : Nat)
    (s : Statement) (before after : List Predicate) :
    ShowsValue scope text fun a =>
      .group tag { s with predicates := before ++ p a :: after } := by
  obtain ⟨connective, joined⟩ := inner.joined
  refine ShowsValue.of_alone (fun op a => Comparison.of_group op tag _)
    Comparison.showsOperand_single ?_
  refine Factors.bind (Scope.factors_conditions joined inner.written before after)
    fun context around => ?_
  exact Factors.done (around_parentheses around)

theorem ShowsCondition.operand {v : α → Value} (inner : ShowsValue scope text v) (key : String)
    (column : Column) (op : Operator) (connective : Connective) :
    ShowsCondition scope text fun a => ⟨key, column, some op, v a, connective⟩ := by
  refine ⟨?_, connective, fun _ => rfl⟩
  exact Factors.after fun name _ => inner.compared op name _

theorem ShowsCondition.nested {p : α → Predicate} (inner : ShowsCondition scope text p)
    (key : String) (column : Column) (connective : Connective) (tag : Nat) (s : Statement)
    (before after : List Predicate) :
    ShowsCondition scope text fun a =>
      ⟨key, column, none, .group tag { s with predicates := before ++ p a :: after },
        connective⟩ :=
  ⟨(ShowsValue.group inner tag s before after).alone, connective, fun _ => rfl⟩

theorem statement_eq (scope : Scope) (s : Statement) :
    scope.statement s =
      match s.kind with
      | .select | .random =>
        scope.select s.toHeader (scope.joins s.joins) (scope.wheres s) (scope.members s.members)
      | .insert =>
        scope.insert s.toHeader (!s.rows.isEmpty)
          (scope.rows s.insertColumns.length 0 s.rows)
      | .update =>
        scope.update s.toHeader (!s.joins.isEmpty) (!s.assignments.isEmpty)
          (scope.assignments s.assignments) (scope.wheres s)
      | .delete => scope.delete s.toHeader (!s.joins.isEmpty) (scope.wheres s)
      | .raw => Scope.raw s.toHeader
      | .undecided => throw .undecided := by
  cases s with
  | mk h ps js rs as ms bs =>
      cases kind : h.kind <;> simp only [Scope.statement, Scope.wheres, kind]

theorem ends_wheres {s : Statement} {sql : String} (yields : Yields (scope.wheres s) sql) :
    EndsLiteral sql :=
  Scope.ends_clause (c := ' ') rfl (by decide) yields

theorem factors_wheres {p : α → Predicate} (inner : ShowsCondition scope text p) (s : Statement)
    (before after : List Predicate) :
    Factors Around text fun a =>
      scope.wheres { s with predicates := before ++ p a :: after } := by
  obtain ⟨connective, joined⟩ := inner.joined
  simp only [Scope.wheres, Scope.isEmpty_around]
  exact Scope.factors_clause (Scope.factors_conditions joined inner.written before after)

/-- The conditions of a statement are written in its body. -/
theorem factors_body {p : α → Predicate} (inner : ShowsCondition scope text p)
    (frame : Frame .condition .statement) :
    Factors Around text fun a =>
      scope.body (frame.fill (p a)).toHeader (scope.joins (frame.fill (p a)).joins)
        (scope.wheres (frame.fill (p a))) := by
  cases frame with
  | filter s before after =>
      have wheres := factors_wheres inner s before after
      simp only [Frame.fill]
      exact Scope.factors_body_wheres wheres
  | on s front kind table before after back =>
      obtain ⟨connective, joined⟩ := inner.joined
      exact Scope.factors_body_joins
        (Scope.factors_joins joined inner.written front kind table before after back)
        (fun yields => ends_wheres (s := s) yields)

theorem ShowsStatement.filter {p : α → Predicate} (inner : ShowsCondition scope text p)
    (s : Statement) (before after : List Predicate)
    (shown : (Frame.filter s before after).isShown = true) :
    ShowsStatement scope text fun a => (Frame.filter s before after).fill (p a) := by
  refine ⟨?_, s.toHeader, fun _ => rfl⟩
  have body := factors_body inner (.filter s before after)
  have wheres := factors_wheres inner s before after
  simp only [Frame.isShown] at shown
  simp only [statement_eq, Frame.fill] at body ⊢
  cases kind : s.kind with
  | select | random => exact Scope.factors_select_body body Scope.ends_members
  | update => exact Scope.factors_update_wheres wheres
  | delete => exact Scope.factors_delete wheres
  | insert | raw | undecided =>
      rw [kind] at shown
      cases shown

theorem ShowsStatement.on {p : α → Predicate} (inner : ShowsCondition scope text p)
    (s : Statement) (front : List Join) (kind : JoinKind) (table : Expression)
    (before after : List Predicate) (back : List Join)
    (shown : (Frame.on s front kind table before after back).isShown = true) :
    ShowsStatement scope text fun a =>
      (Frame.on s front kind table before after back).fill (p a) := by
  refine ⟨?_, s.toHeader, fun _ => rfl⟩
  have body := factors_body inner (.on s front kind table before after back)
  simp only [Frame.isShown] at shown
  simp only [statement_eq, Frame.fill] at body ⊢
  cases kind : s.kind with
  | select | random => exact Scope.factors_select_body body Scope.ends_members
  | insert | update | delete | raw | undecided =>
      rw [kind] at shown
      cases shown

theorem ShowsStatement.field {v : α → Value} (inner : ShowsValue scope text v) (s : Statement)
    (front : List (List Value)) (before after : List Value) (back : List (List Value))
    (shown : (Frame.field s front before after back).isShown = true) :
    ShowsStatement scope text fun a => (Frame.field s front before after back).fill (v a) := by
  refine ⟨?_, s.toHeader, fun _ => rfl⟩
  have kind : s.kind = .insert := of_decide_eq_true shown
  simp only [statement_eq, Frame.fill, kind, Scope.isEmpty_around]
  exact Scope.factors_insert (Scope.factors_rows inner.alone _ 0 front before after back)

theorem ShowsStatement.assigned {v : α → Value} (inner : ShowsValue scope text v)
    (s : Statement) (before : List Assignment) (key : String) (column : Column)
    (after : List Assignment) (shown : (Frame.assigned s before key column after).isShown = true) :
    ShowsStatement scope text fun a => (Frame.assigned s before key column after).fill (v a) := by
  refine ⟨?_, s.toHeader, fun _ => rfl⟩
  have kind : s.kind = .update := of_decide_eq_true shown
  simp only [statement_eq, Frame.fill, kind, Scope.isEmpty_around]
  exact Scope.factors_update_assignments
    (Scope.factors_assignments inner.alone before key column after) ends_wheres

theorem ShowsStatement.member {i : α → Statement} (inner : ShowsStatement scope text i)
    (s : Statement) (before : List UnionMember) (all : Bool) (after : List UnionMember)
    (shown : (Frame.member s before all after).isShown = true) :
    ShowsStatement scope text fun a => (Frame.member s before all after).fill (i a) := by
  refine ⟨?_, s.toHeader, fun _ => rfl⟩
  obtain ⟨h, header⟩ := inner.header
  have members := Scope.factors_members header inner.written before all after
  simp only [Frame.isShown] at shown
  simp only [statement_eq, Frame.fill, Scope.wheres]
  cases kind : s.kind with
  | select | random => exact Scope.factors_select_members members
  | insert | update | delete | raw | undecided =>
      rw [kind] at shown
      cases shown

end Steps

/-! ## The whole way outward -/

variable {α : Type} {scope : Scope} {text : α → String}

theorem Frame.shows {a b : Piece} (frame : Frame a b) (shown : frame.isShown = true)
    {content : α → a.Content} (inner : Shows scope text a content) :
    Shows scope text b fun x => frame.fill (content x) := by
  cases frame with
  | operand key column op connective =>
      exact ShowsCondition.operand inner key column op connective
  | item before after => exact ShowsValue.item inner before after
  | subquery tag => exact ShowsValue.query inner tag
  | group tag s before after => exact ShowsValue.group inner tag s before after
  | nested key column connective tag s before after =>
      exact ShowsCondition.nested inner key column connective tag s before after
  | filter s before after => exact ShowsStatement.filter inner s before after shown
  | on s front kind table before after back =>
      exact ShowsStatement.on inner s front kind table before after back shown
  | field s front before after back =>
      exact ShowsStatement.field inner s front before after back shown
  | assigned s before key column after =>
      exact ShowsStatement.assigned inner s before key column after shown
  | member s before all after => exact ShowsStatement.member inner s before all after shown

theorem Path.shows {a b : Piece} (path : Path a b) (shown : path.isShown = true)
    {content : α → a.Content} (inner : Shows scope text a content) :
    Shows scope text b fun x => path.fill (content x) := by
  induction path with
  | here => exact inner
  | step outer path ih =>
      simp only [Path.isShown, Bool.and_eq_true] at shown
      exact outer.shows shown.1 (ih shown.2)

/-- What a place in a statement holds does not change what its rendering is relative to. -/
theorem Path.scope_fill (path : Path .value .statement) (g : Grammar) (left right : Value) :
    (path.fill left).scope g = (path.fill right).scope g := by
  cases path with
  | step outer inner => cases outer <;> rfl

theorem Path.factors_sqlIn (path : Path .value .statement) (shown : path.isShown = true)
    {g : Grammar} {v : α → Value} (same : ∀ a, (path.fill (v a)).scope g = scope)
    (inner : ShowsValue scope text v) :
    Factors Around text fun a => (path.fill (v a)).sqlIn g := by
  have written := ShowsStatement.written (path.shows shown inner)
  simp only [Statement.sqlIn, same]
  exact written

end SqlBuilder
