import SqlBuilder.Proofs.Effect
import SqlBuilder.Proofs.Store

/-!
# Changes of statements

All that calls do to statements is made of a few changes: the header is
rewritten, bindings are added, and values or union members are stored.  What
every change keeps, every call keeps, and so does every run of calls.  A
change may be bound to nest given statements only, and to write assignments
by a rule.
-/

namespace SqlBuilder

/--
A single change of a statement.  The statements that it nests are among the
given ones, and the assignments that it writes obey the rule.
-/
inductive Statement.Change (rule : List Assignment → Prop) (Given : Statement → Prop) :
    Statement → Statement → Prop where
  | header {s : Statement} (h : Header) (config : h.config = s.config)
      (markers : h.markers = s.markers) : Change rule Given s { s with toHeader := h }
  | bind {s : Statement} (bindings : List Binding) :
      Change rule Given s { s with bindings := s.bindings ++ bindings }
  | conditions {s s' : Statement} (predicates : List Predicate)
      (given : ∀ p ∈ predicates, p.value.HoldsOnly Given)
      (done : s.addPredicates predicates = .ok s') : Change rule Given s s'
  | join {s s' : Statement} (kind : JoinKind) (table : Expression)
      (done : s.addJoin kind table = .ok s') : Change rule Given s s'
  | attach {s s' : Statement} (index : Nat) (predicate : Predicate)
      (valid : index < s.joins.length) (given : predicate.value.HoldsOnly Given)
      (done : s.attach index predicate = .ok s') : Change rule Given s s'
  | row {s s' : Statement} (row : List Value) (given : ∀ value ∈ row, value.HoldsOnly Given)
      (done : s.addRow row = .ok s') : Change rule Given s s'
  | extend {s s' : Statement} (value : Value) (given : value.HoldsOnly Given)
      (done : s.extendRow value = .ok s') : Change rule Given s s'
  | assign {s s' : Statement} (assignments : List Assignment) (obeys : rule assignments)
      (given : ∀ a ∈ assignments, a.value.HoldsOnly Given)
      (done : s.assign assignments = .ok s') : Change rule Given s s'
  | member {s s' : Statement} (all : Bool) (inner : Statement) (given : Given inner)
      (done : s.addMember all inner = .ok s') : Change rule Given s s'

/-- A change that nests given statements nests statements of any wider kind. -/
theorem Statement.Change.mono {rule : List Assignment → Prop} {Given Wider : Statement → Prop}
    {s s' : Statement} (wider : ∀ inner, Given inner → Wider inner)
    (change : Change rule Given s s') : Change rule Wider s s' := by
  cases change with
  | header h config markers => exact .header h config markers
  | bind bindings => exact .bind bindings
  | conditions predicates given done =>
      exact .conditions predicates (fun p mem inner holds => wider inner (given p mem inner holds))
        done
  | join kind table done => exact .join kind table done
  | attach index p valid given done =>
      exact .attach index p valid (fun inner holds => wider inner (given inner holds)) done
  | row row given done =>
      exact .row row (fun value mem inner holds => wider inner (given value mem inner holds)) done
  | extend value given done =>
      exact .extend value (fun inner holds => wider inner (given inner holds)) done
  | assign assignments obeys given done =>
      exact .assign assignments obeys
        (fun a mem inner holds => wider inner (given a mem inner holds)) done
  | member all inner given done => exact .member all inner (wider inner given) done

/-- Changes one after the other. -/
abbrev Statement.Changes (rule : List Assignment → Prop) (Given : Statement → Prop) :
    Statement → Statement → Prop :=
  Relation.ReflTransGen (Statement.Change rule Given)

namespace Call

/-- The values that a call is given; those of a group's body aside. -/
def givenValues : Call → List Value
  | .condition c => [c.value]
  | .conditions _ _ _ operands => operands
  | .join _ _ ons => ons.map Condition.value
  | .values row => row
  | .value field => [field]
  | .set pairs => pairs.map Prod.snd
  | _ => []

/-- The union members that a call is given. -/
def givenMembers : Call → List Statement
  | .union _ member => [member]
  | .unions members => members
  | _ => []

/-- The call builds a group of conditions by calls of its own. -/
def isGroup : Call → Bool
  | .group _ _ _ _ => true
  | _ => false

/-- What a call assigns, once its columns are worked out, obeys the rule. -/
def Obeys (rule : List Assignment → Prop) : Call → Session → Prop
  | .set pairs, session => ∀ assignments trace,
      Assignment.resolveAll pairs session.trace = .ok assignments trace → rule assignments
  | _, _ => True

end Call

/-! ## What the parts of calls leave unchanged -/

/-- A statement that takes a kind differs in its kind only. -/
theorem Statement.claim_eq_ok {s s' : Statement} {kind : StatementKind}
    (done : s.claim kind = .ok s') : s' = { s with kind } := by
  unfold Statement.claim at done
  split at done
  · cases done
    rfl
  · split at done
    · next same =>
        cases done
        rw [← same]
        -- a statement lies in a nest of types, so its fields have to be taken apart
        cases s
        rfl
    · cases done

/-- A statement that is undecided or already of a kind takes the kind. -/
theorem Statement.claim_of_mem {s : Statement} {kind : StatementKind}
    (same : s.kind = .undecided ∨ s.kind = kind) : s.claim kind = .ok { s with kind } := by
  unfold Statement.claim
  rcases same with undecided | same
  · rw [if_pos undecided]
  · by_cases undecided : s.kind = .undecided
    · rw [if_pos undecided]
    · rw [if_neg undecided, if_pos same, ← same]
      cases s
      rfl

/-- A statement of another kind refuses it. -/
theorem Statement.claim_of_not_mem {s : Statement} {kind : StatementKind}
    (differs : ¬ (s.kind = .undecided ∨ s.kind = kind)) :
    s.claim kind = .error (.kindConflict s.kind kind) := by
  obtain ⟨decided, differs⟩ := not_or.mp differs
  unfold Statement.claim
  rw [if_neg decided, if_neg differs]

/-- A condition that is worked out keeps its value. -/
theorem Condition.resolve_value {c : Condition} {before after : Trace} {p : Predicate}
    (run : c.resolve before = .ok p after) : p.value = c.value := by
  obtain ⟨operator, _, -, run⟩ := Outcome.bind_ok run
  obtain ⟨key, _, -, run⟩ := Outcome.bind_ok run
  obtain ⟨_, _, -, run⟩ := Outcome.bind_ok run
  obtain ⟨rfl, -⟩ := Outcome.pure_ok run
  rfl

/-- Conditions are worked out from left to right. -/
theorem Condition.resolveAll_cons_ok {c : Condition} {cs : List Condition} {before after : Trace}
    {ps : List Predicate} :
    resolveAll (c :: cs) before = .ok ps after ↔
      ∃ p between rest, c.resolve before = .ok p between ∧
        resolveAll cs between = .ok rest after ∧ ps = p :: rest := by
  constructor
  · intro run
    obtain ⟨p, between, head, run⟩ := Outcome.bind_ok run
    obtain ⟨rest, last, tail, run⟩ := Outcome.bind_ok run
    obtain ⟨rfl, rfl⟩ := Outcome.pure_ok run
    exact ⟨p, between, rest, head, tail, rfl⟩
  · rintro ⟨p, between, rest, head, tail, rfl⟩
    exact (Outcome.bind_of_ok head).trans (Outcome.bind_of_ok tail)

/-- Conditions that are worked out keep their values. -/
theorem Condition.resolveAll_values {cs : List Condition} {before after : Trace}
    {ps : List Predicate} (run : Condition.resolveAll cs before = .ok ps after) :
    ps.map Predicate.value = cs.map Condition.value := by
  induction cs generalizing before ps with
  | nil =>
      obtain ⟨rfl, -⟩ := Outcome.pure_ok run
      rfl
  | cons c cs ih =>
      obtain ⟨p, between, rest, head, tail, rfl⟩ := resolveAll_cons_ok.mp run
      rw [List.map_cons, List.map_cons, Condition.resolve_value head, ih tail]

/-- Conditions that are put together from lists take their values from the list of values. -/
theorem Condition.zip_values {connective : Connective} {columns : List Column}
    {operators : List String} {values : List Value} {cs : List Condition}
    (done : Condition.zip connective columns operators values = .ok cs) :
    cs.map Condition.value = values := by
  unfold Condition.zip at done
  split at done
  · next lengths =>
      cases done
      obtain ⟨toOperators, toValues⟩ := lengths
      have inner : (operators.zip values).map Prod.snd = values :=
        List.map_snd_zip (by omega)
      have outer : (columns.zip (operators.zip values)).map Prod.snd = operators.zip values :=
        List.map_snd_zip (by rw [List.length_zip]; omega)
      rw [List.map_map]
      calc (columns.zip (operators.zip values)).map (Prod.snd ∘ Prod.snd)
          = ((columns.zip (operators.zip values)).map Prod.snd).map Prod.snd :=
            List.map_map.symm
        _ = values := by rw [outer, inner]
  · cases done

/-- The keys of columns are worked out from left to right. -/
theorem Assignment.resolveAll_cons_ok {column : Column} {operand : Value}
    {pairs : List (Column × Value)} {before after : Trace} {assignments : List Assignment} :
    resolveAll ((column, operand) :: pairs) before = .ok assignments after ↔
      ∃ key between rest, column.key before = .ok key between ∧
        resolveAll pairs between = .ok rest after ∧
        assignments = ⟨key, column, operand⟩ :: rest := by
  constructor
  · intro run
    obtain ⟨key, between, head, run⟩ := Outcome.bind_ok run
    obtain ⟨rest, last, tail, run⟩ := Outcome.bind_ok run
    obtain ⟨rfl, rfl⟩ := Outcome.pure_ok run
    exact ⟨key, between, rest, head, tail, rfl⟩
  · rintro ⟨key, between, rest, head, tail, rfl⟩
    exact (Outcome.bind_of_ok head).trans (Outcome.bind_of_ok tail)

/-- Assignments keep the values they are made from. -/
theorem Assignment.resolveAll_values {pairs : List (Column × Value)} {before after : Trace}
    {assignments : List Assignment}
    (run : Assignment.resolveAll pairs before = .ok assignments after) :
    assignments.map Assignment.value = pairs.map Prod.snd := by
  induction pairs generalizing before assignments with
  | nil =>
      obtain ⟨rfl, -⟩ := Outcome.pure_ok run
      rfl
  | cons pair pairs ih =>
      obtain ⟨key, between, rest, -, tail, rfl⟩ := resolveAll_cons_ok.mp run
      rw [List.map_cons, List.map_cons, ih tail]

/-! ## Calls go by changes -/

namespace Build

variable {rule : List Assignment → Prop} {Given : Statement → Prop}

/-- The call goes by changes that nest given statements only. -/
abbrev Goes {α : Type} (rule : List Assignment → Prop) (Given : Statement → Prop)
    (call : Build α) : Prop :=
  call.Moves (Statement.Changes rule Given)

/-- Changes that succeed are changes. -/
theorem goes_change {f : Statement → Except Error Statement}
    (step : ∀ s s', f s = .ok s' → Statement.Change rule Given s s') :
    Goes rule Given (change f) :=
  .change (fun _ => .refl) fun s s' done => .single (step s s' done)

theorem goes_update {f : Statement → Statement}
    (step : ∀ s, Statement.Change rule Given s (f s)) : Goes rule Given (update f) :=
  .update fun s => .single (step s)

theorem goes_bind {α β : Type} {first : Build α} {next : α → Build β}
    (goes : Goes rule Given first) (then_ : ∀ answer, Goes rule Given (next answer)) :
    Goes rule Given (first >>= next) :=
  .bind Relation.ReflTransGen.trans goes then_

theorem goes_pure {α : Type} (answer : α) : Goes rule Given (pure answer) :=
  .pure (fun _ => .refl) answer

theorem goes_throw {α : Type} (error : Error) : Goes rule Given (throw error : Build α) :=
  .throw (fun _ => .refl) error

theorem goes_observe {α : Type} (action : EStateM Error Trace α) :
    Goes rule Given (observe action) :=
  .observe (fun _ => .refl) action

theorem goes_get : Goes rule Given (get : Build Session) :=
  .get fun _ => .refl

theorem goes_ofExcept {α : Type} (check : Except Error α) :
    Goes rule Given (ofExcept check : Build α) := by
  cases check with
  | ok answer => exact goes_pure answer
  | error error => exact goes_throw error

theorem goes_claim (kind : StatementKind) : Goes rule Given (claim kind) := by
  rw [claim_eq]
  refine goes_change fun s s' done => ?_
  rw [Statement.claim_eq_ok done]
  exact .header { s.toHeader with kind } rfl rfl

/-- Lists of expressions stand in the header. -/
theorem goes_extend {place : Place} {items : List Expression}
    {store : Statement → List Expression → Statement}
    (step : ∀ s, Statement.Change rule Given s (store s items)) :
    Goes rule Given (extend place items store) := by
  rw [extend_eq]
  refine goes_change fun s s' done => ?_
  obtain ⟨_, -, stored⟩ := Outcome.except_bind_ok done
  cases stored
  exact step s

theorem goes_requireWritable (kind : WriteKind) : Goes rule Given (requireWritable kind) := by
  refine goes_bind goes_get fun session => ?_
  split
  · exact goes_bind (goes_observe _) fun _ => goes_throw _
  · exact goes_pure _

theorem goes_select (columns : List Expression) : Goes rule Given (select columns) :=
  goes_bind (goes_claim _) fun _ => goes_extend fun s =>
    .header { s.toHeader with columns := s.columns ++ columns } rfl rfl

theorem goes_random (columns : List Expression) : Goes rule Given (random columns) :=
  goes_bind (goes_claim _) fun _ => goes_extend fun s =>
    .header { s.toHeader with columns := s.columns ++ columns } rfl rfl

theorem goes_tables (tables : List Expression) : Goes rule Given (Build.tables tables) :=
  goes_extend fun s => .header { s.toHeader with tables := s.tables ++ tables } rfl rfl

theorem goes_raw (sql : String) : Goes rule Given (raw sql) := by
  rw [raw_eq]
  refine goes_bind ?_ fun _ => goes_change fun s s' done => ?_
  · refine goes_bind goes_get fun session => ?_
    split
    · split
      · exact goes_bind (goes_observe _) fun _ => goes_throw _
      · exact goes_pure _
    · exact goes_pure _
  · obtain ⟨claimed, claim, stored⟩ := Outcome.except_bind_ok done
    cases stored
    rw [Statement.claim_eq_ok claim]
    exact .header
      { s.toHeader with kind := .raw, rawText := some (Statement.trimRaw sql) } rfl rfl

theorem goes_union {all : Bool} {member : Statement} (given : Given member) :
    Goes rule Given (union all member) := by
  rw [union_eq]
  exact goes_change fun _ _ done => .member all member given done

theorem goes_unions {members : List Statement} (given : ∀ member ∈ members, Given member) :
    Goes rule Given (unions members) := by
  induction members with
  | nil => exact goes_pure ()
  | cons member others ih =>
      refine goes_bind (goes_union (given member List.mem_cons_self)) fun _ => ih ?_
      intro other mem
      exact given other (List.mem_cons_of_mem _ mem)

theorem goes_condition {c : Condition} (given : c.value.HoldsOnly Given) :
    Goes rule Given (condition c) := by
  rw [condition_eq]
  refine .observe_bind (fun _ => .refl) fun p before left run => ?_
  refine goes_change fun s s' done => .conditions [p] ?_ done
  intro q mem
  rw [List.mem_singleton.mp mem, Condition.resolve_value run]
  exact given

theorem goes_conditions {connective : Connective} {columns : List Column}
    {operators : List String} {operands : List Value}
    (given : ∀ value ∈ operands, value.HoldsOnly Given) :
    Goes rule Given (conditions connective columns operators operands) := by
  rw [conditions_eq]
  cases zipped : Condition.zip connective columns operators operands with
  | error fault => exact goes_throw _
  | ok cs =>
      refine .observe_bind (fun _ => .refl) fun ps before left run => ?_
      refine goes_change fun s s' done => .conditions ps ?_ done
      intro p mem
      refine given p.value ?_
      rw [← Condition.zip_values zipped, ← Condition.resolveAll_values run]
      exact List.mem_map_of_mem mem

theorem goes_group {tag : Nat} {connective : Connective} {inner : Statement}
    (given : Given inner) : Goes rule Given (group tag connective inner) := by
  rw [group_eq]
  split
  · exact goes_pure _
  · refine goes_bind (goes_update fun s => ?_) fun _ => goes_change fun s s' done => ?_
    · exact .header { s.toHeader with groupCount := s.groupCount + 1 } rfl rfl
    · refine .conditions [s.groupPredicate tag connective inner] ?_ done
      intro p mem held holds
      rw [List.mem_singleton.mp mem] at holds
      cases holds
      exact given

/-- A condition on a join adds no join. -/
theorem joins_on (index : Nat) (c : Condition) :
    (on index c).Moves fun s s' => s'.joins.length = s.joins.length := by
  rw [on_eq]
  apply Moves.observe_bind
  · intro s
    rfl
  · intro p before left run
    apply Moves.change
    · intro s
      rfl
    · intro s s' done
      obtain ⟨names, taken, -, rfl⟩ := Statement.attach_ok done
      exact List.length_modify _ s.joins index

theorem changes_on {index : Nat} {c : Condition} {session : Session}
    (valid : index < session.statement.joins.length) (given : c.value.HoldsOnly Given) :
    Statement.Changes rule Given session.statement ((on index c).after session).statement := by
  rw [on_eq]
  rcases after_observe_bind c.resolve (fun p => change (·.attach index p)) session with
    same | ⟨p, trace, run, went⟩
  · rw [same]
  · rw [went]
    rcases after_change (·.attach index p) { session with trace } with same | done
    · rw [same]
    · refine .single (.attach index p valid ?_ done)
      rw [Condition.resolve_value run]
      exact given

theorem changes_onAll {index : Nat} {ons : List Condition} {session : Session}
    (valid : index < session.statement.joins.length)
    (given : ∀ c ∈ ons, c.value.HoldsOnly Given) :
    Statement.Changes rule Given session.statement ((onAll index ons).after session).statement := by
  induction ons generalizing session with
  | nil => exact .refl
  | cons c cs ih =>
      have first : Statement.Changes rule Given session.statement _ :=
        changes_on valid (given c List.mem_cons_self)
      have count := joins_on index c session
      rcases after_bind (on index c) (fun _ => onAll index cs) session with
        stopped | ⟨_, left, run, went⟩
      · unfold onAll
        rw [stopped]
        exact first
      · unfold onAll
        rw [after_of_ok run] at first count
        rw [went]
        refine first.trans (ih (by omega) ?_)
        intro other mem
        exact given other (List.mem_cons_of_mem c mem)

theorem goes_join {kind : JoinKind} {table : Expression} {ons : List Condition}
    (given : ∀ c ∈ ons, c.value.HoldsOnly Given) : Goes rule Given (join kind table ons) := by
  intro session
  rw [join_eq]
  have added : Statement.Changes rule Given session.statement _ :=
    goes_change (fun s s' done => .join kind table done) session
  rcases after_bind (change (·.addJoin kind table)) _ session with stopped | ⟨_, left, run, went⟩
  · rw [stopped]
    exact added
  · rw [after_of_ok run] at added
    rw [went]
    have count : left.statement.joins.length = session.statement.joins.length + 1 := by
      rw [Statement.addJoin_ok (change_ok run).1, List.length_append]
      rfl
    refine added.trans ?_
    change Statement.Changes rule Given left.statement
      ((onAll (left.statement.joins.length - 1) ons >>= fun _ => pure _).after left).statement
    rw [after_bind_pure]
    exact changes_onAll (by omega) given

theorem goes_orderBy (columns : OrderColumns) (directions : OrderDirections) :
    Goes rule Given (orderBy columns directions) := by
  rw [orderBy_eq]
  refine goes_bind (goes_ofExcept _) fun pairs => goes_bind (goes_observe _) fun _ => ?_
  exact goes_update fun s => .header (s.addOrders pairs).toHeader rfl rfl

theorem goes_insert (columns : List Expression) : Goes rule Given (insert columns) :=
  goes_bind (goes_requireWritable _) fun _ => goes_bind (goes_claim _) fun _ =>
    goes_extend fun s =>
      .header { s.toHeader with insertColumns := s.insertColumns ++ columns } rfl rfl

theorem goes_into (target : Expression) : Goes rule Given (into target) := by
  rw [into_eq]
  refine goes_change fun s s' done => ?_
  obtain ⟨_, -, stored⟩ := Outcome.except_bind_ok done
  cases stored
  exact .header { s.toHeader with target := some target } rfl rfl

theorem goes_updateTables (tables : List Expression) : Goes rule Given (updateTables tables) :=
  goes_bind (goes_requireWritable _) fun _ => goes_bind (goes_claim _) fun _ =>
    goes_extend fun s =>
      .header { s.toHeader with updateTables := s.updateTables ++ tables } rfl rfl

theorem goes_delete : Goes rule Given delete := by
  rw [delete_eq]
  refine goes_bind (goes_requireWritable _) fun _ => goes_change fun s s' done => ?_
  obtain ⟨claimed, claim, stored⟩ := Outcome.except_bind_ok done
  cases stored
  rw [Statement.claim_eq_ok claim]
  exact .header { s.toHeader with kind := .delete, deletes := true } rfl rfl

/-- What is assigned depends on the trace, on which deferred columns are worked out. -/
theorem changes_set {pairs : List (Column × Value)} {session : Session}
    (obeys : (Call.set pairs).Obeys rule session)
    (given : ∀ pair ∈ pairs, pair.2.HoldsOnly Given) :
    Statement.Changes rule Given session.statement ((set pairs).after session).statement := by
  rw [set_eq]
  rcases after_observe_bind (Assignment.resolveAll pairs)
    (fun assignments => change (·.assign assignments)) session with same | ⟨as, trace, run, went⟩
  · rw [same]
  · rw [went]
    refine goes_change (fun s s' done => .assign as (obeys as trace run) ?_ done)
      { session with trace }
    intro a mem
    have kept : a.value ∈ pairs.map Prod.snd := by
      rw [← Assignment.resolveAll_values run]
      exact List.mem_map_of_mem mem
    obtain ⟨pair, inPairs, same⟩ := List.mem_map.mp kept
    rw [← same]
    exact given pair inPairs

theorem goes_values {row : List Value} (given : ∀ value ∈ row, value.HoldsOnly Given) :
    Goes rule Given (values row) := by
  rw [values_eq]
  exact goes_change fun s s' done => .row row given done

theorem goes_value {field : Value} (given : field.HoldsOnly Given) :
    Goes rule Given (value field) := by
  rw [value_eq]
  exact goes_change fun s s' done => .extend field given done

end Build

/-- A call that is no group goes by changes, if it is given what may be nested. -/
theorem Call.changes_run {rule : List Assignment → Prop} {Given : Statement → Prop} {c : Call}
    {session : Session} (plain : c.isGroup = false) (obeys : c.Obeys rule session)
    (values : ∀ value ∈ c.givenValues, value.HoldsOnly Given)
    (members : ∀ member ∈ c.givenMembers, Given member) :
    Statement.Changes rule Given session.statement (c.run.after session).statement := by
  cases c with
  | select columns => exact Build.Moves.done (Build.goes_select columns) session
  | random columns => exact Build.Moves.done (Build.goes_random columns) session
  | distinct =>
      refine Build.Moves.done (Build.goes_update fun s => ?_) session
      exact .header { s.toHeader with distinct := true } rfl rfl
  | tables tables => exact Build.Moves.done (Build.goes_tables tables) session
  | raw sql => exact Build.Moves.done (Build.goes_raw sql) session
  | limit n =>
      refine Build.Moves.done (Build.goes_update fun s => ?_) session
      exact .header { s.toHeader with limit := some n } rfl rfl
  | offset n =>
      refine Build.Moves.done (Build.goes_update fun s => ?_) session
      exact .header { s.toHeader with offset := some n } rfl rfl
  | lock =>
      refine Build.Moves.done (Build.goes_update fun s => ?_) session
      exact .header { s.toHeader with locked := true } rfl rfl
  | union all member =>
      exact Build.Moves.done (Build.goes_union (members member List.mem_cons_self)) session
  | unions others => exact Build.Moves.done (Build.goes_unions members) session
  | bind bindings => exact Build.Moves.done (Build.goes_update fun s => .bind bindings) session
  | condition c =>
      exact Build.Moves.done (Build.goes_condition (values c.value List.mem_cons_self)) session
  | conditions connective columns operators operands =>
      exact Build.Moves.done (Build.goes_conditions values) session
  | group tag connective tolerant body => cases plain
  | orderBy columns directions =>
      exact Build.Moves.done (Build.goes_orderBy columns directions) session
  | groupBy columns =>
      refine Build.Moves.done (Build.goes_extend fun s => ?_) session
      exact .header { s.toHeader with groups := s.groups ++ columns } rfl rfl
  | join kind table ons =>
      have joined : Build.Goes rule Given (Build.join kind table ons) :=
        Build.goes_join fun c mem => values c.value (List.mem_map_of_mem mem)
      exact Build.goes_bind joined (fun _ => Build.goes_pure _) session
  | insert columns => exact Build.Moves.done (Build.goes_insert columns) session
  | into target => exact Build.Moves.done (Build.goes_into target) session
  | values row => exact Build.Moves.done (Build.goes_values values) session
  | value field =>
      exact Build.Moves.done (Build.goes_value (values field List.mem_cons_self)) session
  | update tables => exact Build.Moves.done (Build.goes_updateTables tables) session
  | set pairs =>
      unfold Call.run Build.done
      rw [Build.after_bind_pure]
      exact Build.changes_set obeys fun pair mem => values pair.2 (List.mem_map_of_mem mem)
  | delete => exact Build.Moves.done Build.goes_delete session

end SqlBuilder
