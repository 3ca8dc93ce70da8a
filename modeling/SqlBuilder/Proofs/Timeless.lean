import SqlBuilder.Proofs.Failure
import SqlBuilder.Proofs.Reachable

/-!
# Calls that do not look at the past

The outcome of a call may depend on what happened before only through deferred
texts, whose successive evaluations may differ.  If the columns that a call
works out always give the same text, then the call comes out the same on every
trace, and adds the same events to it.
-/

namespace SqlBuilder

/-- A deferred text that is always the same. -/
def Deferred.Stable (d : Deferred) : Prop :=
  ∀ m n, d.text m = d.text n

/-- A column whose text is always the same. -/
def Column.Stable : Column → Prop
  | .deferred d => d.Stable
  | _ => True

/-- An action on the trace that has one outcome on all traces, and adds the same events to them. -/
def Steady {ε α : Type} (action : EStateM ε Trace α) : Prop :=
  ∃ events : List Event, (∃ a, ∀ trace, action trace = .ok a (trace ++ events)) ∨
    ∃ e, ∀ trace, action trace = .error e (trace ++ events)

namespace Steady

variable {ε α β : Type} {first : EStateM ε Trace α} {next : α → EStateM ε Trace β}

theorem pure (a : α) : Steady (pure a : EStateM ε Trace α) :=
  ⟨[], Or.inl ⟨a, fun trace => by rw [List.append_nil]; rfl⟩⟩

theorem throw (e : ε) : Steady (throw e : EStateM ε Trace α) :=
  ⟨[], Or.inr ⟨e, fun trace => by rw [List.append_nil]; rfl⟩⟩

theorem ofExcept (check : Except ε α) : Steady (ofExcept check : EStateM ε Trace α) := by
  cases check with
  | ok a => exact pure a
  | error e => exact throw e

theorem emit (event : Event) : Steady (Trace.emit event : EStateM ε Trace Unit) :=
  ⟨[event], Or.inl ⟨(), fun _ => rfl⟩⟩

theorem bind (steady : Steady first) (follows : ∀ a, Steady (next a)) :
    Steady (first >>= next) := by
  obtain ⟨events, ⟨a, run⟩ | ⟨e, run⟩⟩ := steady
  · obtain ⟨more, ⟨b, went⟩ | ⟨e, went⟩⟩ := follows a
    · refine ⟨events ++ more, Or.inl ⟨b, fun trace => ?_⟩⟩
      rw [Outcome.bind_of_ok (run trace), went, List.append_assoc]
    · refine ⟨events ++ more, Or.inr ⟨e, fun trace => ?_⟩⟩
      rw [Outcome.bind_of_ok (run trace), went, List.append_assoc]
  · exact ⟨events, Or.inr ⟨e, fun trace => Outcome.bind_of_error (run trace)⟩⟩

end Steady

/-! ## Columns that are worked out -/

theorem Column.steady_key {c : Column} (stable : c.Stable) : Steady c.key := by
  have read : Steady (c.read : EStateM Error Trace String) := by
    cases c with
    | name content | handle content => exact Steady.pure _
    | deferred d =>
        refine ⟨[.evaluated d.id], Or.inl ⟨d.text 0, fun trace => ?_⟩⟩
        change d.eval trace = _
        rw [Deferred.eval_run, stable (trace.evaluations d.id) 0]
  refine read.bind fun key => ?_
  split
  · exact Steady.throw _
  · exact Steady.pure key

theorem Condition.steady_resolve {c : Condition} (stable : c.column.Stable) :
    Steady c.resolve := by
  refine (Steady.ofExcept _).bind fun operator => ?_
  refine (Column.steady_key stable).bind fun key => ?_
  exact (Steady.ofExcept _).bind fun _ => Steady.pure _

theorem Condition.steady_resolveAll {cs : List Condition} (stable : ∀ c ∈ cs, c.column.Stable) :
    Steady (Condition.resolveAll cs) := by
  induction cs with
  | nil => exact Steady.pure []
  | cons c cs ih =>
      refine (Condition.steady_resolve (stable c List.mem_cons_self)).bind fun p => ?_
      exact (ih fun other mem => stable other (List.mem_cons_of_mem c mem)).bind fun ps =>
        Steady.pure _

/-- Conditions that are put together from lists have the given columns, in their order. -/
theorem Condition.zip_columns {connective : Connective} {columns : List Column}
    {operators : List String} {values : List Value} {cs : List Condition}
    (done : Condition.zip connective columns operators values = .ok cs) :
    cs.map Condition.column = columns := by
  unfold Condition.zip at done
  split at done
  · next lengths =>
      cases done
      have shorter : columns.length ≤ (operators.zip values).length := by
        rw [List.length_zip]
        omega
      rw [List.map_map]
      exact List.map_fst_zip shorter
  · cases done

theorem Condition.mem_zip_column {connective : Connective} {columns : List Column}
    {operators : List String} {values : List Value} {cs : List Condition} {c : Condition}
    (done : Condition.zip connective columns operators values = .ok cs) (mem : c ∈ cs) :
    c.column ∈ columns := by
  rw [← zip_columns done]
  exact List.mem_map_of_mem mem

theorem Ordering.steady_resolveAll {columns : List SortColumn}
    (stable : ∀ c ∈ columns, c.column.Stable) : Steady (Ordering.resolveAll columns) := by
  induction columns with
  | nil => exact Steady.pure ()
  | cons c cs ih =>
      refine (Column.steady_key (stable c List.mem_cons_self)).bind fun key => ?_
      exact ih fun other mem => stable other (List.mem_cons_of_mem c mem)

theorem Assignment.steady_resolveAll {pairs : List (Column × Value)}
    (stable : ∀ pair ∈ pairs, pair.1.Stable) : Steady (Assignment.resolveAll pairs) := by
  induction pairs with
  | nil => exact Steady.pure []
  | cons pair pairs ih =>
      refine (Column.steady_key (stable pair List.mem_cons_self)).bind fun key => ?_
      exact (ih fun other mem => stable other (List.mem_cons_of_mem pair mem)).bind fun as =>
        Steady.pure _

/-- The columns of an order. -/
def OrderColumns.toList : OrderColumns → List Column
  | .one column => [column]
  | .many columns => columns

/-- What each check keeps can be read off the results of a list of checks. -/
theorem Outcome.map_of_mapM_ok {ε α β γ : Type} {f : α → Except ε β} {read : β → γ}
    {given : α → γ} (keeps : ∀ a b, f a = .ok b → read b = given a) {items : List α}
    {results : List β} (done : items.mapM f = .ok results) : results.map read = items.map given := by
  induction items generalizing results with
  | nil =>
      cases done
      rfl
  | cons a items ih =>
      rw [List.mapM_cons] at done
      obtain ⟨first, head, done⟩ := Outcome.except_bind_ok done
      obtain ⟨rest, tail, done⟩ := Outcome.except_bind_ok done
      cases done
      rw [List.map_cons, List.map_cons, keeps a first head, ih tail]

/-- What is ordered by are the given columns, in their order. -/
theorem Ordering.pair_columns {columns : OrderColumns} {directions : OrderDirections}
    {pairs : List SortColumn} (done : Ordering.pair columns directions = .ok pairs) :
    pairs.map SortColumn.column = columns.toList := by
  cases columns with
  | one column =>
      cases directions with
      | one text =>
          obtain ⟨direction, -, done⟩ := Outcome.except_bind_ok done
          cases done
          rfl
      | each texts => cases done
  | many columns =>
      cases directions with
      | one text =>
          obtain ⟨direction, -, done⟩ := Outcome.except_bind_ok done
          cases done
          rw [List.map_map]
          exact List.map_id columns
      | each texts =>
          simp only [Ordering.pair] at done
          split at done
          · next lengths =>
              have same : pairs.map SortColumn.column = (columns.zip texts).map Prod.fst := by
                refine Outcome.map_of_mapM_ok (fun pair c came => ?_) done
                obtain ⟨direction, -, came⟩ := Outcome.except_bind_ok came
                cases came
                rfl
              rw [same]
              exact List.map_fst_zip (Nat.le_of_eq lengths)
          · cases done

theorem Ordering.mem_pair {columns : OrderColumns} {directions : OrderDirections}
    {pairs : List SortColumn} {c : SortColumn} (done : Ordering.pair columns directions = .ok pairs)
    (mem : c ∈ pairs) : c.column ∈ columns.toList := by
  rw [← pair_columns done]
  exact List.mem_map_of_mem mem

/-! ## Calls -/

namespace Build

variable {α β : Type}

/-- A call that comes out the same on every trace, and adds the same events to it. -/
def Timeless (call : Build α) : Prop :=
  ∀ s : Statement, ∃ (events : List Event) (s' : Statement),
    (∃ a, ∀ trace, call ⟨s, trace⟩ = .ok a ⟨s', trace ++ events⟩) ∨
      ∃ e, ∀ trace, call ⟨s, trace⟩ = .error e ⟨s', trace ++ events⟩

theorem timeless_pure (a : α) : Timeless (pure a : Build α) :=
  fun s => ⟨[], s, Or.inl ⟨a, fun trace => by rw [List.append_nil]; rfl⟩⟩

theorem timeless_throw (e : Error) : Timeless (throw e : Build α) :=
  fun s => ⟨[], s, Or.inr ⟨e, fun trace => by rw [List.append_nil]; rfl⟩⟩

theorem timeless_change (f : Statement → Except Error Statement) : Timeless (change f) := by
  intro s
  cases done : f s with
  | ok s' =>
      refine ⟨[], s', Or.inl ⟨(), fun trace => ?_⟩⟩
      rw [List.append_nil]
      exact change_of_ok done
  | error e =>
      refine ⟨[], s, Or.inr ⟨e, fun trace => ?_⟩⟩
      rw [List.append_nil]
      exact change_of_error done

theorem timeless_of_isChange {call : Build Unit} (whole : IsChange call) : Timeless call := by
  obtain ⟨f, rfl⟩ := whole
  exact timeless_change f

theorem timeless_observe {action : EStateM Error Trace α} (steady : Steady action) :
    Timeless (observe action) := by
  intro s
  obtain ⟨events, ⟨a, run⟩ | ⟨e, run⟩⟩ := steady
  · exact ⟨events, s, Or.inl ⟨a, fun trace => observe_of_ok (run trace)⟩⟩
  · exact ⟨events, s, Or.inr ⟨e, fun trace => observe_of_error (run trace)⟩⟩

theorem timeless_bind {first : Build α} {next : α → Build β} (timeless : Timeless first)
    (then_ : ∀ a, Timeless (next a)) : Timeless (first >>= next) := by
  intro s
  obtain ⟨events, s', ⟨a, run⟩ | ⟨e, run⟩⟩ := timeless s
  · obtain ⟨more, s'', ⟨b, went⟩ | ⟨e, went⟩⟩ := then_ a s'
    · refine ⟨events ++ more, s'', Or.inl ⟨b, fun trace => ?_⟩⟩
      rw [Outcome.bind_of_ok (run trace), went, List.append_assoc]
    · refine ⟨events ++ more, s'', Or.inr ⟨e, fun trace => ?_⟩⟩
      rw [Outcome.bind_of_ok (run trace), went, List.append_assoc]
  · exact ⟨events, s', Or.inr ⟨e, fun trace => Outcome.bind_of_error (run trace)⟩⟩

/-- A call may look at the statement. -/
theorem timeless_get (next : Statement → Build β) (then_ : ∀ s, Timeless (next s)) :
    Timeless (get >>= fun session => next session.statement) :=
  fun s => then_ s s

theorem timeless_done {call : Build Unit} (timeless : Timeless call) : Timeless (done call) :=
  timeless_bind timeless fun _ => timeless_pure Answer.done

/-- A failing call may be skipped. -/
theorem timeless_step (tolerant : Bool) {call : Build Answer} (timeless : Timeless call) :
    Timeless (step tolerant call) := by
  intro s
  obtain ⟨events, s', ⟨a, run⟩ | ⟨e, run⟩⟩ := timeless s
  · exact ⟨events, s', Or.inl ⟨(), fun trace => step_of_ok tolerant (run trace)⟩⟩
  · refine ⟨events, s', ?_⟩
    have stepped (trace : Trace) := step_of_error tolerant (run trace)
    cases tolerant with
    | false => exact Or.inr ⟨e, stepped⟩
    | true => exact Or.inl ⟨(), stepped⟩

/-- What is built apart, as an action on the trace. -/
def building (statement : Statement) (body : Build Unit) : EStateM Error Trace Statement :=
  fun trace =>
    match body ⟨statement, trace⟩ with
    | .ok _ inner => .ok inner.statement inner.trace
    | .error error inner => .error error inner.trace

theorem apart_eq_observe (statement : Statement) (body : Build Unit) :
    apart statement body = observe (building statement body) := by
  funext session
  unfold apart observe building
  cases body ⟨statement, session.trace⟩ <;> rfl

theorem building_ok {statement built : Statement} {body : Build Unit} {trace left : Trace}
    (run : building statement body trace = .ok built left) :
    body ⟨statement, trace⟩ = .ok () ⟨built, left⟩ := by
  unfold building at run
  cases went : body ⟨statement, trace⟩ with
  | ok answer inner =>
      rw [went] at run
      cases run
      rfl
  | error e inner =>
      rw [went] at run
      cases run

theorem steady_building (statement : Statement) {body : Build Unit} (timeless : Timeless body) :
    Steady (building statement body) := by
  obtain ⟨events, built, ⟨a, run⟩ | ⟨e, run⟩⟩ := timeless statement
  · refine ⟨events, Or.inl ⟨built, fun trace => ?_⟩⟩
    unfold building
    rw [run trace]
  · refine ⟨events, Or.inr ⟨e, fun trace => ?_⟩⟩
    unfold building
    rw [run trace]

/-- A statement may be built apart. -/
theorem timeless_apart (statement : Statement) {body : Build Unit} (timeless : Timeless body) :
    Timeless (apart statement body) := by
  rw [apart_eq_observe]
  exact timeless_observe (steady_building statement timeless)

theorem timeless_claim_extend (kind : StatementKind) (place : Place) (items : List Expression)
    (store : Statement → List Expression → Statement) :
    Timeless (claim kind >>= fun _ => extend place items store) :=
  timeless_bind (timeless_of_isChange (isChange_claim kind)) fun _ =>
    timeless_of_isChange (isChange_extend place items store)

/-- A kind that is taken together with another part. -/
theorem timeless_claim_update (kind : StatementKind) (write : Statement → Statement) :
    Timeless (claim kind >>= fun _ => update write) :=
  timeless_bind (timeless_of_isChange (isChange_claim kind)) fun _ =>
    timeless_of_isChange (isChange_update write)

/-- A check that only observes, and what it observes is settled by the configuration. -/
def Guards (check : Build Unit) : Prop :=
  ∀ config : Config, ∃ action : EStateM Error Trace Unit, Steady action ∧
    ∀ session : Session, session.statement.config = config →
      check session = observe action session

/-- A check that refuses read-only statements, always in the same way. -/
theorem guards_of_readOnly {check : Build Unit} {refusal : EStateM Error Trace Unit}
    (steady : Steady refusal) (form : ∀ session : Session, check session =
      (if session.statement.config.readOnly then observe refusal else pure ()) session) :
    Guards check := by
  intro config
  cases access : config.readOnly with
  | true =>
      refine ⟨refusal, steady, fun session own => ?_⟩
      rw [form, own, access]
      rfl
  | false =>
      refine ⟨_, Steady.pure (), fun session own => ?_⟩
      rw [form, own, access]
      rfl

theorem guards_requireWritable (kind : WriteKind) : Guards (requireWritable kind) :=
  guards_of_readOnly ((Steady.emit (.refusedWrite kind)).bind fun _ =>
    Steady.throw (.readOnly (.writes kind))) fun _ => rfl

theorem guards_requireHarmless (sql : String) : Guards (requireHarmless sql) := by
  cases found : Statement.writeWords.find? (Text.mentions sql) with
  | none =>
      refine guards_of_readOnly (Steady.pure ()) fun session => ?_
      unfold requireHarmless
      rw [found]
      rfl
  | some word =>
      refine guards_of_readOnly ((Steady.emit (.refusedKeyword word)).bind fun _ =>
        Steady.throw (.readOnly (.keyword word))) fun session => ?_
      unfold requireHarmless
      rw [found]
      rfl

theorem Guards.timeless {check : Build Unit} (guards : Guards check) : Timeless check := by
  intro s
  obtain ⟨action, steady, same⟩ := guards s.config
  have own (trace : Trace) : check ⟨s, trace⟩ = observe action ⟨s, trace⟩ := same ⟨s, trace⟩ rfl
  simp only [own]
  exact timeless_observe steady s

theorem timeless_unions (members : List Statement) : Timeless (unions members) := by
  induction members with
  | nil => exact timeless_pure ()
  | cons member others ih =>
      exact timeless_bind (timeless_of_isChange (isChange_union false member)) fun _ => ih

theorem timeless_condition {c : Condition} (stable : c.column.Stable) :
    Timeless (condition c) := by
  rw [condition_eq]
  exact timeless_bind (timeless_observe (Condition.steady_resolve stable)) fun _ =>
    timeless_change _

theorem timeless_conditions {connective : Connective} {columns : List Column}
    {operators : List String} {operands : List Value} (stable : ∀ c ∈ columns, c.Stable) :
    Timeless (conditions connective columns operators operands) := by
  rw [conditions_eq]
  cases zipped : Condition.zip connective columns operators operands with
  | error fault => exact timeless_throw _
  | ok cs =>
      change Timeless (observe (Condition.resolveAll cs) >>= fun ps => change (·.addPredicates ps))
      refine timeless_bind (timeless_observe (Condition.steady_resolveAll fun c mem => ?_))
        fun ps => timeless_change _
      exact stable c.column (Condition.mem_zip_column zipped mem)

theorem timeless_group (tag : Nat) (connective : Connective) (inner : Statement) :
    Timeless (group tag connective inner) := by
  rw [group_eq]
  split
  · exact timeless_pure ()
  · exact timeless_bind (timeless_of_isChange (isChange_update _)) fun _ => timeless_change _

theorem timeless_groupOf (tag : Nat) (connective : Connective) {body : Build Unit}
    (timeless : Timeless body) : Timeless (groupOf tag connective body) :=
  timeless_get (fun s => apart s.config.selection body >>= group tag connective)
    fun _ => timeless_bind (timeless_apart _ timeless) (timeless_group tag connective)

theorem timeless_on {index : Nat} {c : Condition} (stable : c.column.Stable) :
    Timeless (on index c) := by
  rw [on_eq]
  exact timeless_bind (timeless_observe (Condition.steady_resolve stable)) fun _ =>
    timeless_change _

theorem timeless_onAll {index : Nat} {ons : List Condition}
    (stable : ∀ c ∈ ons, c.column.Stable) : Timeless (onAll index ons) := by
  induction ons with
  | nil => exact timeless_pure ()
  | cons c cs ih =>
      refine timeless_bind (timeless_on (stable c List.mem_cons_self)) fun _ => ih ?_
      intro other mem
      exact stable other (List.mem_cons_of_mem c mem)

theorem timeless_join {kind : JoinKind} {table : Expression} {ons : List Condition}
    (stable : ∀ c ∈ ons, c.column.Stable) : Timeless (join kind table ons) := by
  rw [join_eq]
  exact timeless_bind (timeless_change _) fun _ =>
    timeless_get (fun s => onAll (s.joins.length - 1) ons >>= fun _ =>
      pure (s.joins.length - 1)) fun _ =>
        timeless_bind (timeless_onAll stable) fun _ => timeless_pure _

theorem timeless_orderBy {columns : OrderColumns} {directions : OrderDirections}
    (stable : ∀ c ∈ columns.toList, c.Stable) : Timeless (orderBy columns directions) := by
  rw [orderBy_eq]
  cases paired : Ordering.pair columns directions with
  | error fault => exact timeless_throw _
  | ok pairs =>
      change Timeless (observe (Ordering.resolveAll pairs) >>= fun _ => update (·.addOrders pairs))
      refine timeless_bind (timeless_observe (Ordering.steady_resolveAll fun c mem => ?_))
        fun _ => timeless_of_isChange (isChange_update _)
      exact stable c.column (Ordering.mem_pair paired mem)

theorem timeless_set {pairs : List (Column × Value)} (stable : ∀ pair ∈ pairs, pair.1.Stable) :
    Timeless (set pairs) := by
  rw [set_eq]
  exact timeless_bind (timeless_observe (Assignment.steady_resolveAll stable)) fun _ =>
    timeless_change _

end Build

namespace Call

mutual

/-- The columns that a call works out always have the same text, also in the body of a group. -/
def Stable : Call → Prop
  | .condition c => c.column.Stable
  | .conditions _ columns _ _ => ∀ c ∈ columns, c.Stable
  | .group _ _ _ body => StableAll body
  | .orderBy columns _ => ∀ c ∈ columns.toList, c.Stable
  | .join _ _ ons => ∀ c ∈ ons, c.column.Stable
  | .set pairs => ∀ pair ∈ pairs, pair.1.Stable
  | _ => True
termination_by structural call => call

/-- The same for each call of a list. -/
def StableAll : List Call → Prop
  | [] => True
  | call :: calls => Stable call ∧ StableAll calls
termination_by structural calls => calls

end

open Build in
mutual

/-- A call on stable columns comes out the same on every trace. -/
theorem timeless_run : ∀ call : Call, call.Stable → Timeless call.run
  | .condition _, stable => timeless_done (timeless_condition stable)
  | .conditions _ _ _ _, stable => timeless_done (timeless_conditions stable)
  | .group tag connective tolerant body, stable =>
      timeless_done (timeless_groupOf tag connective (timeless_runAll tolerant body stable))
  | .orderBy _ _, stable => timeless_done (timeless_orderBy stable)
  | .join _ _ _, stable => timeless_bind (timeless_join stable) fun _ => timeless_pure _
  | .set _, stable => timeless_done (timeless_set stable)
  | .select _, _ | .random _, _ => timeless_done (timeless_claim_extend _ _ _ _)
  | .insert _, _ | .update _, _ =>
      timeless_done (timeless_bind (guards_requireWritable _).timeless fun _ =>
        timeless_claim_extend _ _ _ _)
  | .raw sql, _ =>
      timeless_done (timeless_bind (guards_requireHarmless sql).timeless fun _ =>
        timeless_claim_update _ _)
  | .delete, _ =>
      timeless_done (timeless_bind (guards_requireWritable _).timeless fun _ =>
        timeless_claim_update _ _)
  | .unions members, _ => timeless_done (timeless_unions members)
  | .distinct, _ | .limit _, _ | .offset _, _ | .lock, _ | .bind _, _ =>
      timeless_done (timeless_of_isChange (isChange_update _))
  | .tables _, _ | .groupBy _, _ => timeless_done (timeless_of_isChange (isChange_extend _ _ _))
  | .union all member, _ => timeless_done (timeless_of_isChange (isChange_union all member))
  | .into target, _ => timeless_done (timeless_of_isChange (isChange_into target))
  | .values row, _ => timeless_done (timeless_of_isChange (isChange_values row))
  | .value field, _ => timeless_done (timeless_of_isChange (isChange_value field))
termination_by structural call => call

/-- So does every run of such calls. -/
theorem timeless_runAll (tolerant : Bool) :
    ∀ calls : List Call, StableAll calls → Timeless (runAll tolerant calls)
  | [], _ => timeless_pure ()
  | call :: calls, ⟨stable, rest⟩ => by
      rw [runAll_cons]
      exact timeless_bind (timeless_step tolerant (timeless_run call stable)) fun _ =>
        timeless_runAll tolerant calls rest
termination_by structural calls => calls

end

end Call

end SqlBuilder
