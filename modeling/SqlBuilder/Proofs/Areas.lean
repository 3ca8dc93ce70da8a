import SqlBuilder.Proofs.Failure
import SqlBuilder.Proofs.Reachable

/-!
# What calls leave alone

The content of a statement falls into areas: what it was made with, what it is
for, and one area for each clause that is filled by calls of its own.  A call
writes in one of these areas at most, whether it succeeds or fails, so that
the areas can be followed through a run of calls one by one.
-/

namespace SqlBuilder

/-- The areas of a statement that calls write in. -/
inductive Area where
  | config
  | intent
  | conditions
  | joins
  | orders
  | rows
  | assignments
  | members
  deriving DecidableEq

namespace Area

/-- What stands in an area. -/
abbrev Content : Area → Type
  | config => Config
  | intent => StatementKind × Option String
  | conditions => List Predicate
  | joins => List Join
  | orders => List SortColumn
  | rows => List (List Value)
  | assignments => List Assignment
  | members => List UnionMember

/-- The content of an area of a statement. -/
def read : (area : Area) → Statement → area.Content
  | config, s => s.config
  | intent, s => (s.kind, s.rawText)
  | conditions, s => s.predicates
  | joins, s => s.joins
  | orders, s => s.orders
  | rows, s => s.rows
  | assignments, s => s.assignments
  | members, s => s.members

/-- Two statements have the same content in the area. -/
abbrev Same (area : Area) (s s' : Statement) : Prop :=
  area.read s' = area.read s

end Area

/-- The area that a call writes in, if any. -/
def Call.area? : Call → Option Area
  | .select _ | .random _ | .raw _ | .insert _ | .update _ | .delete => some .intent
  | .condition _ | .conditions _ _ _ _ | .group _ _ _ _ => some .conditions
  | .join _ _ _ => some .joins
  | .orderBy _ _ => some .orders
  | .values _ | .value _ => some .rows
  | .set _ => some .assignments
  | .union _ _ | .unions _ => some .members
  | .distinct | .tables _ | .limit _ | .offset _ | .lock | .bind _ | .groupBy _ | .into _ => none

namespace Build

variable {α β γ : Type}

section Preserves

variable {part : Statement → γ}

/-- A part of the statement is the same after the call. -/
abbrev Preserves (part : Statement → γ) (call : Build α) : Prop :=
  call.Moves fun s s' => part s' = part s

theorem preserves_update {f : Statement → Statement} (step : ∀ s, part (f s) = part s) :
    Preserves part (update f) :=
  .update (R := fun s s' => part s' = part s) step

theorem preserves_bind {first : Build α} {next : α → Build β} (keeps : Preserves part first)
    (then_ : ∀ answer, Preserves part (next answer)) : Preserves part (first >>= next) :=
  .bind (R := fun s s' => part s' = part s) (fun left right => right.trans left) keeps then_

/-- A call that reads only keeps every part. -/
theorem preserves_of_reads {call : Build α} (reads : Reads call) : Preserves part call :=
  fun session => congrArg part (reads session)

theorem preserves_pure (answer : α) : Preserves part (pure answer) :=
  preserves_of_reads (reads_pure answer)

theorem preserves_updateEach {write : Statement → α → Statement}
    (step : ∀ s item, part (write s item) = part s) (items : List α) :
    Preserves part (updateEach write items) := by
  induction items with
  | nil => exact preserves_pure ()
  | cons item items ih => exact preserves_bind (preserves_update (step · item)) fun _ => ih

theorem preserves_claim (step : ∀ s kind, part { s with kind } = part s) (kind : StatementKind) :
    Preserves part (claim kind) := by
  refine preserves_bind (preserves_of_reads reads_get) fun session => ?_
  dsimp only
  split
  · exact preserves_update (step · kind)
  · split
    · exact preserves_of_reads (reads_throw _)
    · exact preserves_pure _

theorem preserves_extend {place : Place} {items : List Expression}
    {store : Statement → List Expression → Statement}
    (step : ∀ s, part (store s items) = part s) : Preserves part (extend place items store) :=
  preserves_bind (preserves_of_reads (reads_ofExcept _)) fun _ => preserves_update step

/-- Recording writes bindings and markers only. -/
theorem preserves_track (bindings : ∀ s bindings, part { s with bindings } = part s)
    (markers : ∀ s markers, part { s with markers } = part s) (values : List Value) :
    Preserves part (track values) :=
  preserves_bind (preserves_of_reads (reads_check _)) fun _ =>
    preserves_bind (preserves_of_reads (reads_newBindings _)) fun _ =>
      preserves_bind (preserves_update fun s => bindings s _) fun _ =>
        preserves_update fun s => markers s _

end Preserves

variable {area : Area}

/-- The area is the same after the call. -/
abbrev Keeps (area : Area) (call : Build α) : Prop :=
  call.Moves area.Same

theorem keeps_claim (other : area ≠ .intent) (kind : StatementKind) : Keeps area (claim kind) := by
  refine preserves_claim (fun s kind => ?_) kind
  cases area with
  | intent => cases other rfl
  | _ => rfl

theorem keeps_select (other : area ≠ .intent) (columns : List Expression) :
    Keeps area (select columns) :=
  preserves_bind (keeps_claim other _) fun _ => preserves_extend fun s => by cases area <;> rfl

theorem keeps_random (other : area ≠ .intent) (columns : List Expression) :
    Keeps area (random columns) :=
  preserves_bind (keeps_claim other _) fun _ => preserves_extend fun s => by cases area <;> rfl

theorem keeps_raw (other : area ≠ .intent) (sql : String) : Keeps area (raw sql) := by
  refine preserves_bind (preserves_of_reads (reads_requireHarmless sql)) fun _ => ?_
  refine preserves_bind (keeps_claim other .raw) fun _ => preserves_update fun s => ?_
  cases area with
  | intent => cases other rfl
  | _ => rfl

theorem keeps_insert (other : area ≠ .intent) (columns : List Expression) :
    Keeps area (insert columns) :=
  preserves_bind (preserves_of_reads (reads_requireWritable _)) fun _ =>
    preserves_bind (keeps_claim other _) fun _ => preserves_extend fun s => by cases area <;> rfl

theorem keeps_updateTables (other : area ≠ .intent) (tables : List Expression) :
    Keeps area (updateTables tables) :=
  preserves_bind (preserves_of_reads (reads_requireWritable _)) fun _ =>
    preserves_bind (keeps_claim other _) fun _ => preserves_extend fun s => by cases area <;> rfl

theorem keeps_delete (other : area ≠ .intent) : Keeps area delete :=
  preserves_bind (preserves_of_reads (reads_requireWritable _)) fun _ =>
    preserves_bind (keeps_claim other .delete) fun _ =>
      preserves_update fun s => by cases area <;> rfl

theorem keeps_into (target : Expression) : Keeps area (into target) :=
  preserves_bind (preserves_of_reads (reads_ofExcept _)) fun _ =>
    preserves_update fun s => by cases area <;> rfl

/-- What is recorded stands in none of the areas. -/
theorem keeps_track (values : List Value) : Keeps area (track values) :=
  preserves_track (fun _ _ => by cases area <;> rfl) (fun _ _ => by cases area <;> rfl) values

/-- Storing conditions writes in their area only. -/
theorem keeps_storePredicate (other : area ≠ .conditions) (s : Statement) (p : Predicate) :
    area.Same s (s.storePredicate p) := by
  cases area with
  | conditions => cases other rfl
  | _ => rfl

theorem keeps_pushPredicate (other : area ≠ .conditions) (p : Predicate) :
    Keeps area (pushPredicate p) :=
  preserves_bind (keeps_track _) fun _ => preserves_update (keeps_storePredicate other · p)

theorem keeps_condition (other : area ≠ .conditions) (c : Condition) :
    Keeps area (condition c) :=
  preserves_bind (preserves_of_reads (reads_observe _)) fun _ => keeps_pushPredicate other _

theorem keeps_conditions (other : area ≠ .conditions) (connective : Connective)
    (columns : List Column) (operators : List String) (values : List Value) :
    Keeps area (conditions connective columns operators values) :=
  preserves_bind (preserves_of_reads (reads_check _)) fun _ =>
    preserves_bind (preserves_of_reads (reads_observe _)) fun _ =>
      preserves_bind (keeps_track _) fun _ => preserves_updateEach (keeps_storePredicate other) _

theorem keeps_group (other : area ≠ .conditions) (tag : Nat) (connective : Connective)
    (inner : Statement) : Keeps area (group tag connective inner) := by
  unfold group
  split
  · exact preserves_pure _
  · refine preserves_bind (preserves_update fun s => by cases area <;> rfl) fun _ => ?_
    exact preserves_bind (preserves_of_reads reads_get) fun _ => keeps_pushPredicate other _

theorem keeps_groupOf (other : area ≠ .conditions) (tag : Nat) (connective : Connective)
    (body : Build Unit) : Keeps area (groupOf tag connective body) := by
  intro session
  rcases after_groupOf tag connective body session with same | ⟨built, -, went⟩
  · rw [same]
  · rw [went]
    exact keeps_group other tag connective built.statement _

theorem keeps_on (other : area ≠ .joins) (index : Nat) (c : Condition) :
    Keeps area (on index c) := by
  refine preserves_bind (preserves_of_reads (reads_observe _)) fun _ => ?_
  refine preserves_bind (keeps_track _) fun _ => preserves_update fun s => ?_
  cases area with
  | joins => cases other rfl
  | _ => rfl

theorem keeps_onAll (other : area ≠ .joins) (index : Nat) (ons : List Condition) :
    Keeps area (onAll index ons) := by
  induction ons with
  | nil => exact preserves_pure ()
  | cons c cs ih => exact preserves_bind (keeps_on other index c) fun _ => ih

theorem keeps_join (other : area ≠ .joins) (kind : JoinKind) (table : Expression)
    (ons : List Condition) : Keeps area (join kind table ons) := by
  refine preserves_bind (preserves_of_reads (reads_ofExcept _)) fun _ => ?_
  refine preserves_bind (preserves_update fun s => ?_) fun _ => ?_
  · cases area with
    | joins => cases other rfl
    | _ => rfl
  · refine preserves_bind (preserves_of_reads reads_get) fun session => ?_
    exact preserves_bind (keeps_onAll other _ ons) fun _ => preserves_pure _

theorem keeps_orderBy (other : area ≠ .orders) (columns : OrderColumns)
    (directions : OrderDirections) : Keeps area (orderBy columns directions) := by
  refine preserves_bind (preserves_of_reads (reads_check _)) fun pairs => ?_
  refine preserves_bind (preserves_of_reads (reads_observe _)) fun _ => ?_
  refine preserves_updateEach (fun s c => ?_) pairs
  cases area with
  | orders => cases other rfl
  | _ => rfl

theorem keeps_values (other : area ≠ .rows) (row : List Value) : Keeps area (values row) := by
  refine preserves_bind (keeps_track row) fun _ => preserves_update fun s => ?_
  cases area with
  | rows => cases other rfl
  | _ => rfl

theorem keeps_value (other : area ≠ .rows) (field : Value) : Keeps area (value field) := by
  refine preserves_bind (preserves_of_reads reads_get) fun session => ?_
  split
  · exact preserves_of_reads (reads_throw _)
  · refine preserves_bind (preserves_of_reads (reads_check _)) fun replaced => ?_
    refine preserves_bind (preserves_of_reads reads_get) fun marked => ?_
    refine preserves_bind (keeps_track [field]) fun _ => ?_
    refine preserves_bind (preserves_update fun s => by cases area <;> rfl) fun _ => ?_
    refine preserves_update fun s => ?_
    cases area with
    | rows => cases other rfl
    | _ => rfl

theorem keeps_set (other : area ≠ .assignments) (pairs : List (Column × Value)) :
    Keeps area (set pairs) := by
  refine preserves_bind (preserves_of_reads (reads_observe _)) fun assignments => ?_
  refine preserves_bind (preserves_of_reads reads_get) fun session => ?_
  refine preserves_bind (preserves_of_reads (reads_check _)) fun replaced => ?_
  refine preserves_bind (keeps_track _) fun _ => ?_
  refine preserves_bind (preserves_update fun s => by cases area <;> rfl) fun _ => ?_
  refine preserves_updateEach (fun s a => ?_) assignments
  cases area with
  | assignments => cases other rfl
  | _ => rfl

theorem keeps_union (other : area ≠ .members) (all : Bool) (member : Statement) :
    Keeps area (union all member) := by
  refine preserves_bind (preserves_of_reads (reads_newBindings _)) fun taken => ?_
  refine preserves_bind (preserves_update fun s => by cases area <;> rfl) fun _ => ?_
  refine preserves_bind (preserves_update fun s => by cases area <;> rfl) fun _ => ?_
  refine preserves_update fun s => ?_
  cases area with
  | members => cases other rfl
  | _ => rfl

theorem keeps_unions (other : area ≠ .members) (members : List Statement) :
    Keeps area (unions members) := by
  induction members with
  | nil => exact preserves_pure ()
  | cons member others ih => exact preserves_bind (keeps_union other false member) fun _ => ih

end Build

/-- A call keeps every area that it does not write in. -/
theorem Call.keeps_run {area : Area} {c : Call} (outside : c.area? ≠ some area) :
    c.run.Keeps area := by
  have other {own : Area} (writes : c.area? = some own) : area ≠ own := by
    rintro rfl
    exact outside writes
  cases c with
  | select columns => exact Build.Moves.done (Build.keeps_select (other rfl) columns)
  | random columns => exact Build.Moves.done (Build.keeps_random (other rfl) columns)
  | raw sql => exact Build.Moves.done (Build.keeps_raw (other rfl) sql)
  | insert columns => exact Build.Moves.done (Build.keeps_insert (other rfl) columns)
  | update tables => exact Build.Moves.done (Build.keeps_updateTables (other rfl) tables)
  | delete => exact Build.Moves.done (Build.keeps_delete (other rfl))
  | condition c => exact Build.Moves.done (Build.keeps_condition (other rfl) c)
  | conditions connective columns operators values =>
      exact Build.Moves.done
        (Build.keeps_conditions (other rfl) connective columns operators values)
  | group tag connective tolerant body =>
      exact Build.Moves.done (Build.keeps_groupOf (other rfl) tag connective _)
  | join kind table ons =>
      have joined := Build.keeps_join (other rfl) kind table ons
      exact Build.preserves_bind joined fun _ => Build.preserves_pure _
  | orderBy columns directions =>
      exact Build.Moves.done (Build.keeps_orderBy (other rfl) columns directions)
  | values row => exact Build.Moves.done (Build.keeps_values (other rfl) row)
  | value field => exact Build.Moves.done (Build.keeps_value (other rfl) field)
  | set pairs => exact Build.Moves.done (Build.keeps_set (other rfl) pairs)
  | union all member => exact Build.Moves.done (Build.keeps_union (other rfl) all member)
  | unions members => exact Build.Moves.done (Build.keeps_unions (other rfl) members)
  | into target => exact Build.Moves.done (Build.keeps_into target)
  | tables tables =>
      exact Build.Moves.done (Build.preserves_extend fun s => by cases area <;> rfl)
  | groupBy columns =>
      exact Build.Moves.done (Build.preserves_extend fun s => by cases area <;> rfl)
  | distinct | limit n | offset n | lock | bind bindings =>
      exact Build.Moves.done (Build.preserves_update fun s => by cases area <;> rfl)

end SqlBuilder
