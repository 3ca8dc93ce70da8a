import SqlBuilder.Statement.Ordering
import SqlBuilder.Statement.Union
import SqlBuilder.Statement.Writes

/-!
# Calls as data

Every call on a statement is a value, and running the value makes the call.
The body of a condition group is a list of calls on a statement of its own.
Its first failing call ends the group and fails it; a tolerant group skips
failing calls instead.
-/

namespace SqlBuilder

/-- A call on a statement. -/
inductive Call where
  | select (columns : List Expression)
  | random (columns : List Expression)
  | distinct
  | tables (tables : List Expression)
  | raw (sql : String)
  | limit (n : Int64)
  | offset (n : Int64)
  | lock
  | union (all : Bool) (member : Statement)
  | unions (members : List Statement)
  | bind (bindings : List Binding)
  | condition (c : Condition)
  | conditions (connective : Connective) (columns : List Column) (operators : List String)
      (values : List Value)
  | group (tag : Nat) (connective : Connective) (tolerant : Bool) (body : List Call)
  | orderBy (columns : OrderColumns) (directions : OrderDirections)
  | groupBy (columns : List Expression)
  | join (kind : JoinKind) (table : Expression) (ons : List Condition)
  | insert (columns : List Expression)
  | into (target : Expression)
  | values (row : List Value)
  | value (value : Value)
  | update (tables : List Expression)
  | set (pairs : List (Column × Value))
  | delete

/-- What a call answers. -/
inductive Answer where
  | done
  | index (n : Nat)
  deriving DecidableEq

namespace Build

/-- Make a call for its effect only. -/
def done (call : Build Unit) : Build Answer := do
  call
  return .done

/-- Go on after a failure, with what was changed before it. -/
def tolerate (call : Build Answer) : Build Unit := fun session =>
  match call session with
  | .ok _ session => .ok () session
  | .error _ session => .ok () session

/-- Build a statement apart, on the same trace. -/
def apart (statement : Statement) (body : Build Unit) : Build Statement := fun session =>
  match body { statement, trace := session.trace } with
  | .ok _ inner => .ok inner.statement { session with trace := inner.trace }
  | .error error inner => .error error { session with trace := inner.trace }

/-- Build a group apart and add it. -/
def groupOf (tag : Nat) (connective : Connective) (body : Build Unit) : Build Unit := do
  let inner ← apart (← get).statement.config.selection body
  group tag connective inner

end Build

namespace Call

mutual

/-- Make a call. -/
def run : Call → Build Answer
  | .select items => .done (.select items)
  | .random items => .done (.random items)
  | .distinct => .done .distinct
  | .tables items => .done (.tables items)
  | .raw text => .done (.raw text)
  | .limit n => .done (.limit n)
  | .offset n => .done (.offset n)
  | .lock => .done .lock
  | .union keepAll s => .done (.union keepAll s)
  | .unions items => .done (.unions items)
  | .bind items => .done (.bind items)
  | .condition c => .done (.condition c)
  | .conditions connective cs ops vs => .done (.conditions connective cs ops vs)
  | .group tag connective tolerant body =>
    .done (.groupOf tag connective (runAll tolerant body))
  | .orderBy items order => .done (.orderBy items order)
  | .groupBy items => .done (.groupBy items)
  | .join kind table ons => Answer.index <$> Build.join kind table ons
  | .insert items => .done (.insert items)
  | .into table => .done (.into table)
  | .values row => .done (.values row)
  | .value field => .done (.value field)
  | .update items => .done (.updateTables items)
  | .set pairs => .done (.set pairs)
  | .delete => .done .delete
termination_by structural call => call

/-- Make calls one after the other. -/
def runAll (tolerant : Bool) : List Call → Build Unit
  | [] => pure ()
  | call :: calls => do
    if tolerant then Build.tolerate call.run else discard call.run
    runAll tolerant calls
termination_by structural calls => calls

end

end Call

end SqlBuilder
