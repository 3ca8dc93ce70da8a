import SqlBuilder.Execution
import SqlBuilder.Proofs.Agreement
import SqlBuilder.Proofs.Numbering

/-!
# What a client is sent

Running a statement either sends its text with one parameter for each binding,
after its hook was shown that text, or sends nothing and shows nothing.  What
else happens on the way is that deferred texts are worked out.  The hooks of
nested statements have no part in it.
-/

namespace SqlBuilder

/-! ## Traces of renderings -/

/-- Nothing but evaluations of deferred texts came to the trace. -/
def Trace.Evaluates (before left : Trace) : Prop :=
  ∃ ids : List Nat, left = before ++ ids.map Event.evaluated

theorem Trace.Evaluates.refl (trace : Trace) : trace.Evaluates trace :=
  ⟨[], (List.append_nil trace).symm⟩

/-- The trace that a run leaves. -/
def leaves {ε α : Type} : EStateM.Result ε Trace α → Trace
  | .ok _ left => left
  | .error _ left => left

/-- One and the same trace, which has grown by evaluations since it started. -/
def Trace.GrownFrom (start left right : Trace) : Prop :=
  left = right ∧ start.Evaluates left

/-- Deferred texts make traces grow by their evaluations. -/
theorem Trace.sameTexts_grown (start : Trace) : SameTexts Eq start.GrownFrom where
  text := by
    rintro d _ t _ rfl ⟨rfl, -⟩
    rfl
  next := by
    rintro d _ t _ rfl ⟨rfl, ids, grown⟩
    refine ⟨rfl, ids ++ [d.id], ?_⟩
    rw [grown, List.map_append, List.append_assoc]
    rfl

/-- A rendering that agrees with itself along growing traces adds evaluations only. -/
theorem Agree.evaluates {α : Type} {run : Render α} {trace : Trace}
    (agree : Agree trace.GrownFrom run run) : trace.Evaluates (leaves (run trace)) := by
  have same := agree trace trace ⟨rfl, .refl trace⟩
  generalize run trace = result at same
  cases same with
  | ok answer traces => exact traces.2
  | error fault traces => exact traces.2

namespace Statement

variable {s : Statement} {trace mid left : Trace} {sql : String}

/-- Rendering works out deferred texts and makes nothing else visible. -/
theorem evaluates_sqlIn (s : Statement) (g : Grammar) (trace : Trace) :
    trace.Evaluates (leaves (s.sqlIn g trace)) :=
  Agree.evaluates (Scope.agree_statement (Trace.sameTexts_grown trace) ⟨rfl, fun _ => rfl⟩ s
    (Statement.Alike.refl (fun _ => rfl) s))

/-- What the hook of the statement, if there is one, is shown of a text. -/
def notices (s : Statement) (sql : String) : List Event :=
  match s.config.hook with
  | some hook => [.rendered hook (s.notice sql)]
  | none => []

theorem notify_run (s : Statement) (sql : String) (trace : Trace) :
    s.notify sql trace = .ok () (trace ++ s.notices sql) := by
  unfold notify notices
  cases s.config.hook with
  | some hook => rfl
  | none =>
      rw [List.append_nil]
      rfl

/-- A text is shown to the hook of the statement once, and to no other hook. -/
theorem render_of_ok (run : s.sql trace = .ok sql mid) :
    s.render trace = .ok sql (mid ++ s.notices sql) ∧ trace.Evaluates mid := by
  have grown := evaluates_sqlIn s s.config.grammar trace
  have lifted : s.sql.lift trace = .ok sql mid := by
    unfold Render.lift
    rw [run]
  refine ⟨?_, ?_⟩
  · unfold render
    rw [Outcome.bind_of_ok lifted, Outcome.bind_of_ok (notify_run s sql mid)]
    rfl
  · change s.sqlIn s.config.grammar trace = _ at run
    rwa [run] at grown

/-- A statement that has no text is shown to no hook. -/
theorem render_of_error {fault : RenderFault} (run : s.sql trace = .error fault mid) :
    s.render trace = .error (.render fault) mid ∧ trace.Evaluates mid := by
  have grown := evaluates_sqlIn s s.config.grammar trace
  have lifted : s.sql.lift trace = .error (.render fault) mid := by
    unfold Render.lift
    rw [run]
  refine ⟨Outcome.bind_of_error lifted, ?_⟩
  change s.sqlIn s.config.grammar trace = _ at run
  rwa [run] at grown

end Statement

/-! ## Parameters -/

/-- A value that can be sent: an integer, a text or a number. -/
def Value.Sendable (v : Value) : Prop :=
  v.shape ∈ [Shape.int, .text, .float]

/-- The parameter of each binding in turn. -/
def Binding.Infers (bindings : List Binding) (parameters : List BoundParameter) : Prop :=
  List.Forall₂ (fun b p => BoundParameter.ofValue b.value = .ok p) bindings parameters

/-- Just the values that can be sent have a parameter. -/
theorem BoundParameter.ofValue_ok_iff {v : Value} :
    (∃ p, BoundParameter.ofValue v = .ok p) ↔ v.Sendable := by
  unfold Value.Sendable
  cases v <;> simp [BoundParameter.ofValue, Value.shape]

namespace Binding

/-- Parameters are inferred one by one, in the order of the bindings. -/
theorem parameters_ok_iff {bindings : List Binding} {parameters : List BoundParameter} :
    Binding.parameters bindings = .ok parameters ↔ Infers bindings parameters := by
  unfold Binding.parameters Infers
  induction bindings generalizing parameters with
  | nil =>
      constructor
      · intro done
        cases done
        exact .nil
      · intro infers
        cases infers
        rfl
  | cons b bindings ih =>
      rw [List.mapM_cons, List.forall₂_cons_left_iff]
      constructor
      · intro done
        obtain ⟨p, first, done⟩ := Outcome.except_bind_ok done
        obtain ⟨ps, rest, done⟩ := Outcome.except_bind_ok done
        cases done
        exact ⟨p, ps, first, ih.mp rest, rfl⟩
      · rintro ⟨p, ps, first, rest, rfl⟩
        rw [first, ih.mpr rest]
        rfl

/-- All bindings have parameters just if all their values can be sent. -/
theorem exists_infers_iff {bindings : List Binding} :
    (∃ parameters, Infers bindings parameters) ↔ ∀ b ∈ bindings, b.value.Sendable := by
  unfold Infers
  induction bindings with
  | nil => simp
  | cons b bindings ih =>
      rw [List.forall_mem_cons, ← ih, ← BoundParameter.ofValue_ok_iff]
      constructor
      · rintro ⟨parameters, infers⟩
        cases infers with
        | cons first rest => exact ⟨⟨_, first⟩, ⟨_, rest⟩⟩
      · rintro ⟨⟨p, first⟩, ps, rest⟩
        exact ⟨p :: ps, .cons first rest⟩

end Binding

/-! ## Requests -/

namespace Statement

variable {s : Statement} {trace mid left : Trace} {sql : String}

/-- The grammar is one that can be run, and all bound values can be sent. -/
structure Sendable (s : Statement) : Prop where
  grammar : s.config.grammar.name = "postgres"
  bindings : ∀ b ∈ s.bindings, b.value.Sendable

/-- A statement that can be sent and has a text is made ready. -/
theorem prepare_of_ok {parameters : List BoundParameter}
    (grammar : s.config.grammar.name = "postgres") (infers : Binding.Infers s.bindings parameters)
    (run : s.sql trace = .ok sql mid) :
    s.prepare trace = .ok ⟨sql, parameters⟩ (mid ++ s.notices sql) := by
  have shown := (render_of_ok run).1
  unfold prepare
  rw [if_neg fun other => other grammar, Binding.parameters_ok_iff.mpr infers]
  exact Outcome.bind_of_ok shown

/-- Any other statement is refused, and shown to no hook. -/
theorem prepare_refused (refuses : ¬ (s.Sendable ∧ ∃ sql mid, s.sql trace = .ok sql mid)) :
    ∃ error left, s.prepare trace = .error error left ∧ trace.Evaluates left := by
  unfold prepare
  by_cases grammar : s.config.grammar.name = "postgres"
  · rw [if_neg fun other => other grammar]
    cases inferred : Binding.parameters s.bindings with
    | error error => exact ⟨error, trace, rfl, .refl trace⟩
    | ok parameters =>
        have infers := Binding.parameters_ok_iff.mp inferred
        have sendable : s.Sendable :=
          ⟨grammar, Binding.exists_infers_iff.mp ⟨parameters, infers⟩⟩
        cases run : s.sql trace with
        | ok sql mid => exact absurd ⟨sendable, sql, mid, run⟩ refuses
        | error fault mid =>
            obtain ⟨failed, grown⟩ := render_of_error run
            have behind : (do
                let sql ← s.render
                return ({ sql, parameters } : Request) : EStateM Error Trace Request) trace =
                  .error (.render fault) mid := Outcome.bind_of_error failed
            exact ⟨_, mid, behind, grown⟩
  · rw [if_pos grammar]
    exact ⟨_, trace, rfl, .refl trace⟩

/--
An action sends what was built, or nothing.  A statement that can be sent and
has a text is shown to its hook and then sent once, with one parameter for
each binding, and the answer is the client's.  With any other statement the
action fails, and neither the hook nor the client sees anything.
-/
structure Delivers {α : Type} (s : Statement) (event : Request → Event)
    (reply : Request → Except Error α) (action : EStateM Error Trace α) : Prop where
  sent : ∀ (trace mid : Trace) (sql : String), s.Sendable → s.sql trace = .ok sql mid →
    ∃ parameters, Binding.Infers s.bindings parameters ∧ trace.Evaluates mid ∧
      action trace = (ofExcept (reply ⟨sql, parameters⟩) : EStateM Error Trace α)
        (mid ++ s.notices sql ++ [event ⟨sql, parameters⟩])
  refused : ∀ trace : Trace, ¬ (s.Sendable ∧ ∃ sql mid, s.sql trace = .ok sql mid) →
    ∃ error left, action trace = .error error left ∧ trace.Evaluates left

section Actions

variable {α β : Type} {event : Request → Event} {reply : Request → Except Error α}

/-- To make a statement ready, record the request and ask the client delivers. -/
theorem delivers_prepare (s : Statement) (event : Request → Event)
    (reply : Request → Except Error α) : s.Delivers event reply do
      let request ← s.prepare
      Trace.emit (event request)
      ofExcept (reply request) where
  sent := by
    intro trace mid sql sendable run
    obtain ⟨parameters, infers⟩ := Binding.exists_infers_iff.mpr sendable.bindings
    refine ⟨parameters, infers, (render_of_ok run).2, ?_⟩
    rw [Outcome.bind_of_ok (prepare_of_ok sendable.grammar infers run)]
    rfl
  refused := by
    intro trace refuses
    obtain ⟨error, left, failed, grown⟩ := prepare_refused refuses
    exact ⟨error, left, Outcome.bind_of_error failed, grown⟩

/-- What is made of the client's answer has no part in what is sent. -/
theorem Delivers.bind {action : EStateM Error Trace α} {next : α → EStateM Error Trace β}
    {made : α → Except Error β} (delivers : s.Delivers event reply action)
    (same : ∀ a left, next a left = (ofExcept (made a) : EStateM Error Trace β) left) :
    s.Delivers event (fun request => reply request >>= made) (action >>= next) where
  sent := by
    intro trace mid sql sendable run
    obtain ⟨parameters, infers, grown, went⟩ := delivers.sent trace mid sql sendable run
    refine ⟨parameters, infers, grown, ?_⟩
    cases answered : reply ⟨sql, parameters⟩ with
    | ok a =>
        rw [answered] at went
        rw [Outcome.bind_of_ok went]
        exact same a _
    | error error =>
        rw [answered] at went
        rw [Outcome.bind_of_error went]
        rfl
  refused := by
    intro trace refuses
    obtain ⟨error, left, failed, grown⟩ := delivers.refused trace refuses
    exact ⟨error, left, Outcome.bind_of_error failed, grown⟩

end Actions

variable {Row : Type}

/-- The first row, which has to be there. -/
def firstRow : List Row → Except Error Row
  | row :: _ => .ok row
  | [] => .error (.notFound "Expected one row, got none")

theorem delivers_queryOne (client : Client Row) (s : Statement) :
    s.Delivers .queried (fun request => client.query request >>= firstRow) (s.queryOne client) := by
  refine (delivers_prepare s .queried client.query).bind fun rows left => ?_
  cases rows with
  | nil => rfl
  | cons row rows => rfl

theorem delivers_queryOption (client : Client Row) (s : Statement) :
    s.Delivers .queried (fun request => client.query request >>= fun rows => .ok rows.head?)
      (s.queryOption client) :=
  (delivers_prepare s .queried client.query).bind fun _ _ => rfl

/-! ## Markers -/

/-- A name that is not bound has no position. -/
theorem position?_of_unbound {name : String} (unbound : Binding.find? name s.bindings = none)
    (g : Grammar) : (s.scope g).position? name = none := by
  unfold Binding.find? at unbound
  unfold Scope.position? scope
  rw [List.findIdx?_map, Option.map_eq_none_iff, List.findIdx?_eq_none_iff]
  intro b mem
  have other := List.find?_eq_none.mp unbound b mem
  simpa using other

/-- A name is marked by the place of the parameter that its first binding gives, if it is bound. -/
theorem marker_sent {parameters : List BoundParameter}
    (infers : Binding.Infers s.bindings parameters) (name : String) :
    (∃ k b p, s.BindsAt name k b ∧ (s.scope .postgres).marker name = "$" ++ toString k ∧
      parameters[k - 1]? = some p ∧ BoundParameter.ofValue b.value = .ok p) ∨
    Binding.find? name s.bindings = none ∧ (s.scope .postgres).marker name = ":" ++ name := by
  cases found : Binding.find? name s.bindings with
  | some b =>
      obtain ⟨k, binds⟩ := BindsAt.of_find? found
      obtain ⟨inBindings, entry⟩ := List.getElem?_eq_some_iff.mp binds.entry
      have inParameters : k - 1 < parameters.length := infers.length_eq ▸ inBindings
      have inferred := infers.get inBindings inParameters
      refine Or.inl ⟨k, b, parameters[k - 1], binds, binds.marker, ?_, ?_⟩
      · exact List.getElem?_eq_getElem inParameters
      · rw [← entry]
        exact inferred
  | none =>
      refine Or.inr ⟨rfl, ?_⟩
      unfold Scope.marker
      rw [position?_of_unbound found]
      rfl

/--
Running a statement sends what was built, or nothing, in each of the four
ways.  Every parameter place of what is sent holds `$k` for a bound name, where
the parameter at position `k` is inferred from the first binding of the name,
and the name itself for one that is not bound.  A rendering shows the text to
the hook of the statement alone, and only if there is a text.
-/
theorem delivered_or_nothing {Row : Type} (client : Client Row) {s : Statement} {d : Dialect}
    (own : s.config.grammar = d.grammar) :
    s.Delivers .executed client.execute (s.execute client) ∧
    s.Delivers .queried client.query (s.query client) ∧
    s.Delivers .queried (fun request => client.query request >>= firstRow) (s.queryOne client) ∧
    s.Delivers .queried (fun request => client.query request >>= fun rows => .ok rows.head?)
      (s.queryOption client) ∧
    (∀ parameters, s.Sendable → Binding.Infers s.bindings parameters →
      parameters.length = s.bindings.length ∧ ∀ name,
        ((∃ k b p, s.BindsAt name k b ∧ (s.scope d.grammar).marker name = "$" ++ toString k ∧
            parameters[k - 1]? = some p ∧ BoundParameter.ofValue b.value = .ok p) ∨
          Binding.find? name s.bindings = none ∧
            (s.scope d.grammar).marker name = ":" ++ name) ∧
        ∀ (path : Path .value .statement) (trace left : Trace) (sql : String),
          path.isShown = true → path.fill (.parameter name) = s → s.sql trace = .ok sql left →
          ∃ before after : String, sql = before ++ (s.scope d.grammar).marker name ++ after) ∧
    ∀ trace : Trace,
      (∃ sql mid, s.sql trace = .ok sql mid ∧ trace.Evaluates mid ∧
        s.render trace = .ok sql (mid ++ s.notices sql)) ∨
      ∃ fault left, s.sql trace = .error fault left ∧ trace.Evaluates left ∧
        s.render trace = .error (.render fault) left := by
  refine ⟨delivers_prepare s .executed client.execute, delivers_prepare s .queried client.query,
    delivers_queryOne client s, delivers_queryOption client s, ?_, ?_⟩
  · intro parameters sendable infers
    have postgres : d.grammar = .postgres := by
      have name := sendable.grammar
      rw [own] at name
      cases d with
      | postgres => rfl
      | mysql | sqlite | sqlServer => exact absurd name (by decide)
    refine ⟨infers.length_eq.symm, fun name => ⟨?_, ?_⟩⟩
    · rw [postgres]
      exact marker_sent infers name
    · intro path trace left sql shown place rendered
      unfold Statement.sql at rendered
      rw [own] at rendered
      obtain ⟨before, after, all⟩ := marker_in_sql shown place rendered
      refine ⟨before, after, ?_⟩
      have itself := all name
      rw [place, rendered] at itself
      cases itself
      rfl
  · intro trace
    cases run : s.sql trace with
    | ok sql mid =>
        obtain ⟨shown, grown⟩ := render_of_ok run
        exact Or.inl ⟨sql, mid, rfl, grown, shown⟩
    | error fault left =>
        obtain ⟨failed, grown⟩ := render_of_error run
        exact Or.inr ⟨fault, left, rfl, grown, failed⟩

/-- A client that answers every statement. -/
def answering : Client Unit where
  execute _ := .ok 3
  query _ := .ok []

/-- A statement with a hook, whose only parameter is bound to a number. -/
def fromLevel : Statement :=
  ((Call.runAll false [.select [], .tables [.text "ranks"],
    .condition ⟨.name "level", some ">=", .parameter "level", .and⟩,
    .bind [.named "level" (.int 2)]]).after
      { statement := ({ hook := some .recorder } : Config).statement }).statement

theorem delivered_or_nothing_numbered :
    ∃ sql parameters, sql = "SELECT * FROM \"ranks\" WHERE \"level\" >= $1" ∧
      Binding.Infers [.named "level" (.int 2)] parameters ∧
      fromLevel.execute answering [] =
        .ok 3 [.rendered .recorder ⟨.select, "postgres", 1, sql⟩, .executed ⟨sql, parameters⟩] := by
  have own : fromLevel.config.grammar = Dialect.postgres.grammar := rfl
  obtain ⟨executes, -⟩ := delivered_or_nothing answering own
  have sendable : fromLevel.Sendable := by
    refine ⟨rfl, fun b mem => ?_⟩
    rw [List.mem_singleton.mp mem]
    exact List.mem_cons_self
  have rendered : fromLevel.sql [] =
      .ok "SELECT * FROM \"ranks\" WHERE \"level\" >= $1" [] := rfl
  obtain ⟨parameters, infers, -, went⟩ := executes.sent [] [] _ sendable rendered
  exact ⟨_, parameters, rfl, infers, went⟩

end Statement

end SqlBuilder
