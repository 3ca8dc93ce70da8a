import SqlBuilder.Proofs.Family

/-!
# Calls are local

Every call is local to its family, as long as it nests no statement that holds
bindings and the columns that it works out always have the same text: then
nothing that the call does depends on bindings, or on what happened before.
-/

namespace SqlBuilder

/-! ## Values that bring no bindings -/

/-- No statement that the value nests holds bindings. -/
abbrev Value.Unbound (v : Value) : Prop :=
  v.HoldsOnly fun inner => inner.bindings = []

/-- Statements without bindings have none to take over. -/
theorem Binding.merge_unbound {own : List Binding} {nested : List Statement}
    (unbound : ∀ s ∈ nested, s.bindings = []) : Binding.merge own nested = .ok [] := by
  have none : nested.flatMap Statement.bindings = [] := List.flatMap_eq_nil_iff.mpr unbound
  unfold merge
  rw [none]
  rfl

namespace Statement

/-- Values that bring no bindings only have their names recorded. -/
theorem track_unbound {values : List Value} (unbound : ∀ v ∈ values, v.Unbound) (s : Statement) :
    s.track values = (Value.markersOfAll values).map fun names =>
      { s with markers := s.markers ++ names } := by
  have merged : Binding.merge s.bindings (Value.nestedInAll values) = .ok [] := by
    refine Binding.merge_unbound fun inner mem => ?_
    obtain ⟨v, inValues, holds⟩ := (Value.mem_nestedInAll values).mp mem
    exact unbound v inValues inner holds
  unfold track
  rw [merged]
  cases Value.markersOfAll values with
  | error fault => rfl
  | ok names =>
      change Except.ok { s with bindings := s.bindings ++ [], markers := s.markers ++ names } = _
      rw [List.append_nil]
      rfl

end Statement

/-! ## The parts of calls -/

namespace Build

variable {config : Config} {kind : StatementKind} {f : Family} {takes : Bool}

/-- To take the kind is local to every family. -/
theorem local_claim : Local config kind f true (claim kind) := by
  rw [claim_eq]
  refine local_change (fun content => .ok (content, id)) fun s admits => ?_
  rw [Statement.claim_of_mem admits]
  exact congrArg Except.ok Family.store_read.symm

theorem local_update {G : Statement → Statement} (new : f.Content → f.Content)
    (writes : ∀ s, G s = f.write (new (f.read s)) s) : Local config kind f false (update G) := by
  rw [update_eq_change]
  refine local_change (fun content => .ok (new content, id)) fun s admits => ?_
  rw [writes]
  exact congrArg Except.ok Family.store_plain.symm

/-- Changes of the part that a check may refuse. -/
theorem local_checked {α : Type} {check : Except Error α} {G : Statement → Statement}
    (new : f.Content → f.Content) (writes : ∀ s, G s = f.write (new (f.read s)) s) :
    Local config kind f false (change fun s => do let _ ← check; return G s) := by
  refine local_change (fun content => check.map fun _ => (new content, id)) fun s admits => ?_
  cases check with
  | error e => rfl
  | ok a =>
      change Except.ok (G s) = _
      rw [writes]
      exact congrArg Except.ok Family.store_plain.symm

theorem local_extend {place : Place} {items : List Expression}
    {store : Statement → List Expression → Statement} (new : f.Content → f.Content)
    (writes : ∀ s, store s items = f.write (new (f.read s)) s) :
    Local config kind f false (extend place items store) := by
  rw [extend_eq]
  exact local_checked (G := (store · items)) new writes

theorem local_into {target : Expression} : Local config kind .target false (into target) := by
  rw [into_eq]
  exact local_checked (f := .target) (G := fun s => { s with target := some target })
    (fun _ => some target) fun _ => rfl

/-- The kind is taken, and then expressions are added. -/
theorem local_claim_extend {place : Place} {items : List Expression}
    {store : Statement → List Expression → Statement} (new : f.Content → f.Content)
    (writes : ∀ s, store s items = f.write (new (f.read s)) s) :
    Local config kind f true
      (claim kind >>= fun _ => extend place items store) :=
  local_bind local_claim fun _ _ _ _ _ => local_extend new writes

/-- The kind is taken, and then the part is written. -/
theorem local_claim_update {G : Statement → Statement} (new : f.Content → f.Content)
    (writes : ∀ s, G s = f.write (new (f.read s)) s) :
    Local config kind f true (claim kind >>= fun _ => update G) :=
  local_bind local_claim fun _ _ _ _ _ => local_update new writes

theorem local_guards {check : Build Unit} (guards : Guards check) :
    Local config kind f false check := by
  obtain ⟨action, steady, same⟩ := guards config
  intro x y left a readyX readyY alike run
  rw [same x readyX.config] at run
  rw [same y readyY.config]
  exact local_observe steady x y left a readyX readyY alike run

/-- The names of values are checked, and then recorded. -/
def checkNames (values : List Value) : Except Error (List String) :=
  (Value.markersOfAll values).mapError Error.argument

theorem addPredicates_unbound {predicates : List Predicate}
    (unbound : ∀ p ∈ predicates, p.value.Unbound) (s : Statement) :
    s.addPredicates predicates = (checkNames (predicates.map Predicate.value)).map fun names =>
      { s with
        markers := s.markers ++ names
        predicates := predicates.foldl
          (fun stored p => Keyed.insertGrouped Predicate.key p stored) s.predicates } := by
  unfold Statement.addPredicates checkNames
  rw [Statement.track_unbound (by simpa using unbound)]
  cases Value.markersOfAll (predicates.map Predicate.value) <;> rfl

theorem local_addPredicates {predicates : List Predicate}
    (unbound : ∀ p ∈ predicates, p.value.Unbound) :
    Local config kind .conditions false (change (·.addPredicates predicates)) := by
  refine local_change (f := .conditions) (fun content =>
    (checkNames (predicates.map Predicate.value)).map fun names =>
      ((predicates.foldl (fun stored p => Keyed.insertGrouped Predicate.key p stored) content.1,
        content.2), (· ++ names))) fun s admits => ?_
  rw [addPredicates_unbound unbound]
  cases checkNames (predicates.map Predicate.value) <;> rfl

theorem local_condition {c : Condition} (unbound : c.value.Unbound) (stable : c.column.Stable) :
    Local config kind .conditions false (condition c) := by
  rw [condition_eq]
  refine local_bind (local_observe (Condition.steady_resolve stable)) fun p x left _ run => ?_
  refine local_addPredicates fun q mem => ?_
  rw [List.mem_singleton.mp mem, Condition.resolve_value (observe_ok run).1]
  exact unbound

theorem local_conditions {connective : Connective} {columns : List Column}
    {operators : List String} {operands : List Value} (unbound : ∀ v ∈ operands, v.Unbound)
    (stable : ∀ c ∈ columns, c.Stable) :
    Local config kind .conditions false (conditions connective columns operators operands) := by
  rw [conditions_eq]
  cases zipped : Condition.zip connective columns operators operands with
  | error fault => exact local_throw _
  | ok cs =>
      have stable (c : Condition) (mem : c ∈ cs) : c.column.Stable :=
        stable c.column (Condition.mem_zip_column zipped mem)
      change Local config kind .conditions false
        (observe (Condition.resolveAll cs) >>= fun ps => change (·.addPredicates ps))
      refine local_bind (local_observe (Condition.steady_resolveAll stable))
        fun ps x left _ run => local_addPredicates fun p mem => unbound p.value ?_
      rw [← Condition.zip_values zipped, ← Condition.resolveAll_values (observe_ok run).1]
      exact List.mem_map_of_mem mem

/-- A group without bindings is counted, and stored under its number. -/
theorem local_group {tag : Nat} {connective : Connective} {inner : Statement}
    (unbound : inner.bindings = []) :
    Local config kind .conditions false (group tag connective inner) := by
  rw [group_eq]
  split
  · exact local_pure ()
  · refine local_then (local_update (f := .conditions)
      (fun content => (content.1, content.2 + 1)) fun _ => rfl) fun _ => ?_
    have only (s : Statement) :
        ∀ p ∈ [s.groupPredicate tag connective inner], p.value.Unbound := by
      intro p mem held holds
      rw [List.mem_singleton.mp mem] at holds
      cases holds
      exact unbound
    refine local_change (f := .conditions) (fun content =>
      let key := "#group" ++ toString content.2
      (checkNames [.group tag inner]).map fun names =>
        ((Keyed.insertGrouped Predicate.key
          ⟨key, .name key, none, .group tag inner, connective⟩ content.1, content.2),
          (· ++ names))) fun s admits => ?_
    rw [addPredicates_unbound (only s)]
    have value : [s.groupPredicate tag connective inner].map Predicate.value =
        [.group tag inner] := rfl
    rw [value]
    cases checkNames [.group tag inner] <;> rfl

/-- A group that is built apart, always in the same way, and without bindings. -/
theorem local_groupOf {tag : Nat} {connective : Connective} {body : Build Unit}
    (timeless : Timeless body)
    (unbound : ∀ trace built,
      body ⟨config.selection, trace⟩ = .ok () built → built.statement.bindings = []) :
    Local config kind .conditions false (groupOf tag connective body) := by
  refine local_get (fun s => apart s.config.selection body >>= group tag connective)
    ?_ ?_
  · intro s t same _
    rw [same]
  · rintro s rfl
    rw [apart_eq_observe]
    refine local_bind (local_observe (steady_building _ timeless))
      fun inner x left _ run => local_group ?_
    exact unbound x.trace _ (building_ok (observe_ok run).1)

/-! ### Joins -/

theorem local_attach {index : Nat} {p : Predicate} (unbound : p.value.Unbound) :
    Local config kind .joins false (change (·.attach index p)) := by
  refine local_change (f := .joins) (fun joins =>
    (checkNames [p.value]).map fun names =>
      (joins.modify index fun join => { join with predicates := join.predicates ++ [p] },
        (· ++ names))) fun s admits => ?_
  unfold Statement.attach checkNames
  rw [Statement.track_unbound (by simpa using unbound)]
  cases Value.markersOfAll [p.value] <;> rfl

theorem local_on {index : Nat} {c : Condition} (unbound : c.value.Unbound)
    (stable : c.column.Stable) : Local config kind .joins false (on index c) := by
  rw [on_eq]
  refine local_bind (local_observe (Condition.steady_resolve stable))
    fun p x left _ run => local_attach ?_
  rw [Condition.resolve_value (observe_ok run).1]
  exact unbound

theorem local_onAll {index : Nat} {ons : List Condition} (unbound : ∀ c ∈ ons, c.value.Unbound)
    (stable : ∀ c ∈ ons, c.column.Stable) :
    Local config kind .joins false (onAll index ons) := by
  induction ons with
  | nil => exact local_pure ()
  | cons c cs ih =>
      have first : Local config kind .joins false (on index c) :=
        local_on (unbound c List.mem_cons_self) (stable c List.mem_cons_self)
      exact local_then first fun _ =>
        ih (fun other mem => unbound other (List.mem_cons_of_mem c mem))
          fun other mem => stable other (List.mem_cons_of_mem c mem)

theorem local_join {join : JoinKind} {table : Expression} {ons : List Condition}
    (unbound : ∀ c ∈ ons, c.value.Unbound) (stable : ∀ c ∈ ons, c.column.Stable) :
    Local config kind .joins false (Build.join join table ons) := by
  rw [join_eq]
  refine local_then (local_checked (f := .joins)
    (G := fun s => { s with joins := s.joins ++ [⟨join, table, []⟩] })
    (fun joins => joins ++ [⟨join, table, []⟩]) fun _ => rfl) fun _ => ?_
  refine local_get (fun s => onAll (s.joins.length - 1) ons >>= fun _ =>
    pure (s.joins.length - 1)) ?_ ?_
  · intro s t _ same
    have joins : s.joins = t.joins := same
    rw [joins]
  · intro s _
    exact local_then (local_onAll unbound stable) fun _ => local_pure _

/-! ### Orders, rows, assignments and unions -/

theorem local_orderBy {columns : OrderColumns} {directions : OrderDirections}
    (stable : ∀ c ∈ columns.toList, c.Stable) :
    Local config kind .orders false (orderBy columns directions) := by
  rw [orderBy_eq]
  cases paired : Ordering.pair columns directions with
  | error fault => exact local_throw _
  | ok pairs =>
      have stable (c : SortColumn) (mem : c ∈ pairs) : c.column.Stable :=
        stable c.column (Ordering.mem_pair paired mem)
      change Local config kind .orders false
        (observe (Ordering.resolveAll pairs) >>= fun _ => update (·.addOrders pairs))
      exact local_then (local_observe (Ordering.steady_resolveAll stable)) fun _ =>
        local_update (f := .orders) (fun orders => pairs.foldl
          (fun stored c => Keyed.insertGrouped SortColumn.direction c stored) orders) fun _ => rfl

theorem local_values {row : List Value} (unbound : ∀ v ∈ row, v.Unbound) :
    Local config kind .rows false (values row) := by
  rw [values_eq]
  refine local_change (f := .rows) (fun rows => (checkNames row).map fun names =>
    (rows ++ [row], (· ++ names))) fun s admits => ?_
  unfold Statement.addRow checkNames
  rw [Statement.track_unbound unbound]
  cases Value.markersOfAll row <;> rfl

theorem local_value {v : Value} (unbound : v.Unbound) :
    Local config kind .rows false (value v) := by
  rw [value_eq]
  refine local_change (f := .rows) (fun rows =>
    rows.getLast?.elim (.error (.argument .noRowToExtend)) fun last =>
      Except.mapError Error.argument do
        let replaced ← Statement.replacedNames last v
        let names ← Value.markersOfAll [v]
        return (rows.dropLast ++ [Statement.extendedRow last v],
          fun markers => Markers.forget replaced markers.length (markers ++ names)))
    fun s admits => ?_
  unfold Statement.extendRow Family.read
  cases s.rows.getLast? with
  | none => rfl
  | some last =>
      dsimp only [Option.elim_some]
      rw [Statement.track_unbound (by simpa using unbound)]
      cases Statement.replacedNames last v with
      | error fault => rfl
      | ok replaced => cases Value.markersOfAll [v] <;> rfl

theorem local_assign {assignments : List Assignment}
    (unbound : ∀ a ∈ assignments, a.value.Unbound) :
    Local config kind .assignments false (change (·.assign assignments)) := by
  refine local_change (f := .assignments) (fun stored => Except.mapError Error.argument do
    let replaced ← Value.markersOfAll
      ((Keyed.pushedOut Assignment.key assignments stored).map Assignment.value)
    let names ← Value.markersOfAll (assignments.map Assignment.value)
    return (assignments.foldl (fun stored a => Keyed.upsert Assignment.key a stored) stored,
      fun markers => Markers.forget replaced markers.length (markers ++ names)))
    fun s admits => ?_
  unfold Statement.assign Family.read
  rw [Statement.track_unbound (by simpa using unbound), Statement.overwritten_eq]
  cases Value.markersOfAll
      ((Keyed.pushedOut Assignment.key assignments s.assignments).map Assignment.value) with
  | error fault => rfl
  | ok replaced => cases Value.markersOfAll (assignments.map Assignment.value) <;> rfl

theorem local_set {pairs : List (Column × Value)} (unbound : ∀ v ∈ pairs.map Prod.snd, v.Unbound)
    (stable : ∀ pair ∈ pairs, pair.1.Stable) :
    Local config kind .assignments false (set pairs) := by
  rw [set_eq]
  refine local_bind (local_observe (Assignment.steady_resolveAll stable))
    fun as x left _ run => local_assign fun a mem => unbound a.value ?_
  have given : a.value ∈ as.map Assignment.value := List.mem_map_of_mem mem
  rwa [Assignment.resolveAll_values (observe_ok run).1] at given

theorem addMember_unbound {member : Statement} (unbound : member.bindings = []) (all : Bool)
    (s : Statement) : s.addMember all member = .ok { s with
      markers := s.markers ++ member.markers
      members := s.members ++ [⟨member, all⟩] } := by
  have merged : Binding.merge s.bindings [member] = .ok [] :=
    Binding.merge_unbound (by simpa using unbound)
  unfold Statement.addMember
  rw [merged]
  change Except.ok { s with
    bindings := s.bindings ++ []
    markers := s.markers ++ member.markers
    members := s.members ++ [UnionMember.mk member all] } = _
  rw [List.append_nil]

theorem local_union {all : Bool} {member : Statement} (unbound : member.bindings = []) :
    Local config kind .members false (union all member) := by
  rw [union_eq]
  refine local_change (f := .members) (fun members => .ok
    (members ++ [UnionMember.mk member all], (· ++ member.markers))) fun s admits => ?_
  rw [addMember_unbound unbound]
  rfl

theorem local_unions {members : List Statement} (unbound : ∀ m ∈ members, m.bindings = []) :
    Local config kind .members false (unions members) := by
  induction members with
  | nil => exact local_pure ()
  | cons member others ih =>
      exact local_then (local_union (unbound member List.mem_cons_self)) fun _ =>
        ih fun other mem => unbound other (List.mem_cons_of_mem member mem)

end Build

/-! ## Calls -/

namespace Call

/--
No statement that the call nests holds bindings: not in the values or members
that it is given, and not the group that its body builds.
-/
structure NestsUnbound (config : Config) (c : Call) : Prop where
  values : ∀ v ∈ c.givenValues, v.Unbound
  members : ∀ member ∈ c.givenMembers, member.bindings = []
  group : ∀ tag connective tolerant body, c = .group tag connective tolerant body →
    ∀ trace built, runAll tolerant body ⟨config.selection, trace⟩ = .ok () built →
      built.statement.bindings = []

open Build in
/-- A call that brings no bindings, and works out stable columns only, is local to its family. -/
theorem local_run {config : Config} {kind : StatementKind} (c : Call)
    (intent : ∀ k, c.intent? = some k → k = kind) (unbound : c.NestsUnbound config)
    (stable : c.Stable) : Local config kind c.family c.intent?.isSome c.run := by
  have done {f : Family} {takes : Bool} {call : Build Unit}
      (isLocal : Local config kind f takes call) : Local config kind f takes (Build.done call) := by
    have whole := local_bind isLocal fun _ _ _ _ _ => local_pure Answer.done
    rwa [Bool.or_false] at whole
  cases c with
  | select items =>
      obtain rfl := intent .select rfl
      exact done (local_claim_extend (f := .selection) (fun columns => columns ++ items)
        fun _ => rfl)
  | random items =>
      obtain rfl := intent .random rfl
      exact done (local_claim_extend (f := .selection) (fun columns => columns ++ items)
        fun _ => rfl)
  | distinct =>
      exact done (local_update (f := .flags) (fun flags => (true, flags.2)) fun _ => rfl)
  | tables items =>
      exact done (local_extend (f := .tables) (fun tables => tables ++ items) fun _ => rfl)
  | raw sql =>
      obtain rfl := intent .raw rfl
      exact done (local_then (local_guards (guards_requireHarmless sql)) fun _ =>
        local_claim_update (f := .rawText) (fun _ => some (Statement.trimRaw sql)) fun _ => rfl)
  | limit n => exact done (local_update (f := .limit) (fun _ => some n) fun _ => rfl)
  | offset n => exact done (local_update (f := .offset) (fun _ => some n) fun _ => rfl)
  | lock => exact done (local_update (f := .flags) (fun flags => (flags.1, true)) fun _ => rfl)
  | union all member =>
      exact done (local_union (unbound.members member List.mem_cons_self))
  | unions members => exact done (local_unions unbound.members)
  | bind added =>
      exact done (local_update (f := .bindings) (fun bindings => bindings ++ added) fun _ => rfl)
  | condition c => exact done (local_condition (unbound.values c.value List.mem_cons_self) stable)
  | conditions connective columns operators operands =>
      exact done (local_conditions unbound.values stable)
  | group tag connective tolerant body =>
      exact done (local_groupOf (timeless_runAll tolerant body stable)
        (unbound.group tag connective tolerant body rfl))
  | orderBy columns directions => exact done (local_orderBy stable)
  | groupBy items =>
      exact done (local_extend (f := .groups) (fun groups => groups ++ items) fun _ => rfl)
  | join join table ons =>
      have given (c : Condition) (mem : c ∈ ons) : c.value.Unbound :=
        unbound.values c.value (List.mem_map_of_mem mem)
      exact local_then (local_join given stable) fun _ => local_pure _
  | insert items =>
      obtain rfl := intent .insert rfl
      exact done (local_then (local_guards (guards_requireWritable _)) fun _ =>
        local_claim_extend (f := .insertColumns) (fun columns => columns ++ items) fun _ => rfl)
  | into target => exact done local_into
  | values row => exact done (local_values unbound.values)
  | value field => exact done (local_value (unbound.values field List.mem_cons_self))
  | update items =>
      obtain rfl := intent .update rfl
      exact done (local_then (local_guards (guards_requireWritable _)) fun _ =>
        local_claim_extend (f := .updateTables) (fun tables => tables ++ items) fun _ => rfl)
  | set pairs => exact done (local_set unbound.values stable)
  | delete =>
      obtain rfl := intent .delete rfl
      exact done (local_then (local_guards (guards_requireWritable _)) fun _ =>
        local_claim_update (f := .deletion) (fun _ => true) fun _ => rfl)

end Call

end SqlBuilder
