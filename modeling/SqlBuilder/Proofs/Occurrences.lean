import SqlBuilder.Proofs.Outcome
import SqlBuilder.Sql.Statement

/-!
# Deferred texts where they stand

A deferred text occurs in a statement wherever a column or an expression of a
clause that is written is deferred.  The text of a statement is laid out as
fragments: fixed ones, and one for each occurrence, which shows what the
occurrence gives when it is worked out in its turn.  Only the column of a
comparison with no values is worked out without being shown.
-/

namespace SqlBuilder

/-- The comparison is `IN` with an empty list. -/
def Comparison.isAmongNone : Operator → Value → Bool
  | .isIn, .list [] => true
  | _, _ => false

/-- A place at which a deferred text is worked out. -/
inductive Occurrence where
  /-- The text is shown. -/
  | shown (d : Deferred)
  /-- The text is that of a column which is compared with no values. -/
  | hidden (d : Deferred)

namespace Occurrence

/-- What is recorded when the deferred text is worked out. -/
def event : Occurrence → Event
  | shown d => .evaluated d.id
  | hidden d => .evaluated d.id

/-- What stands at the place. -/
def text (trace : Trace) : Occurrence → String
  | shown d => d.text (trace.evaluations d.id)
  | hidden _ => "1 = 0"

/-! ## The occurrences in a statement -/

/-- A column is a place if it is deferred. -/
def ofColumn (place : Deferred → Occurrence) : Column → List Occurrence
  | .deferred d => [place d]
  | .name _ => []
  | .handle _ => []

def ofExpression : Expression → List Occurrence
  | .deferred d => [shown d]
  | .text _ => []
  | .raw _ => []

def ofExpressions (items : List Expression) : List Occurrence :=
  items.flatMap ofExpression

def ofOrders (orders : List SortColumn) : List Occurrence :=
  orders.flatMap fun c => ofColumn shown c.column

mutual

/-- The occurrences in a value; of a group only the conditions are written. -/
def ofValue : Value → List Occurrence
  | .column c => ofColumn shown c
  | .list items => ofValues items
  | .query _ s => ofStatement s
  | .group _ ⟨_, predicates, _, _, _, _, _⟩ => ofConditions predicates
  | .null | .bool _ | .int _ | .float _ | .text _ | .date _ | .dateTime _ | .parameter _ => []
termination_by structural value => value

def ofValues : List Value → List Occurrence
  | [] => []
  | item :: items => ofValue item ++ ofValues items
termination_by structural values => values

/-- A condition without an operator is a group, or its column alone. -/
def ofPredicate : Predicate → List Occurrence
  | ⟨_, column, none, operand, _⟩ =>
    if operand.shape = .group then ofValue operand else ofColumn shown column
  | ⟨_, column, some op, operand, _⟩ =>
    if Comparison.isAmongNone op operand then ofColumn hidden column
    else ofColumn shown column ++ ofValue operand
termination_by structural predicate => predicate

def ofConditions : List Predicate → List Occurrence
  | [] => []
  | p :: ps => ofPredicate p ++ ofConditions ps
termination_by structural predicates => predicates

def ofJoins : List Join → List Occurrence
  | [] => []
  | ⟨_, table, predicates⟩ :: others =>
    ofExpression table ++ ofConditions predicates ++ ofJoins others
termination_by structural joins => joins

def ofAssignments : List Assignment → List Occurrence
  | [] => []
  | ⟨_, column, operand⟩ :: others =>
    ofColumn shown column ++ ofValue operand ++ ofAssignments others
termination_by structural assignments => assignments

def ofMembers : List UnionMember → List Occurrence
  | [] => []
  | ⟨s, _⟩ :: others => ofStatement s ++ ofMembers others
termination_by structural members => members

/--
The occurrences in a statement, in the order in which they are written.  The
rows of an `INSERT` are worked out before the text in front of them, so that
it is left out here.
-/
def ofStatement : Statement → List Occurrence
  | ⟨h, ps, js, _, as, ms, _⟩ =>
    match h.kind with
    | .select | .random =>
      ofExpressions h.columns ++ ofExpressions h.tables ++ ofJoins js ++ ofConditions ps ++
        ofExpressions h.groups ++ ofMembers ms ++ ofOrders h.orders
    | .update =>
      ofExpressions (if h.updateTables.isEmpty then h.target.toList else h.updateTables) ++
        ofAssignments as ++ ofConditions ps ++ ofOrders h.orders
    | .delete =>
      ofExpressions (h.target <|> h.tables.head?).toList ++ ofConditions ps ++ ofOrders h.orders
    | .insert | .raw | .undecided => []
termination_by structural s => s

end

/-- The occurrences in a group concatenation: its aggregate comes first. -/
def ofConcat (c : GroupConcat) : List Occurrence :=
  ofExpressions c.columns ++ ofExpressions c.statement.tables ++ ofJoins c.statement.joins ++
    ofConditions c.statement.predicates ++ ofExpressions c.statement.groups

end Occurrence

/-! ## Fragments -/

/-- A fragment of a text. -/
inductive Fragment where
  | fixed (text : String)
  | place (occurrence : Occurrence)

namespace Fragment

def occurrences : List Fragment → List Occurrence
  | [] => []
  | fixed _ :: fragments => occurrences fragments
  | place o :: fragments => o :: occurrences fragments

/-- The text of fragments: each occurrence is worked out in its turn, on the trace so far. -/
def write : List Fragment → Trace → String
  | [], _ => ""
  | fixed text :: fragments, trace => text ++ write fragments trace
  | place o :: fragments, trace => o.text trace ++ write fragments (trace ++ [o.event])

/-- The texts of several lists of fragments, from left to right. -/
def writeEach : List (List Fragment) → Trace → List String
  | [], _ => []
  | fragments :: others, trace =>
    write fragments trace ::
      writeEach others (trace ++ (occurrences fragments).map Occurrence.event)

@[simp] theorem occurrences_append (left right : List Fragment) :
    occurrences (left ++ right) = occurrences left ++ occurrences right := by
  induction left with
  | nil => rfl
  | cons fragment left ih => cases fragment <;> simp [occurrences, ih]

theorem write_append (left right : List Fragment) (trace : Trace) :
    write (left ++ right) trace =
      write left trace ++ write right (trace ++ (occurrences left).map Occurrence.event) := by
  induction left generalizing trace with
  | nil => simp [write, occurrences]
  | cons fragment left ih => cases fragment <;> simp [write, occurrences, ih, String.append_assoc]

theorem length_writeEach (lists : List (List Fragment)) (trace : Trace) :
    (writeEach lists trace).length = lists.length := by
  induction lists generalizing trace with
  | nil => rfl
  | cons fragments lists ih => rw [writeEach, List.length_cons, ih, List.length_cons]

theorem occurrences_intercalate (separator : String) (lists : List (List Fragment)) :
    occurrences ([fixed separator].intercalate lists) = lists.flatMap occurrences := by
  induction lists with
  | nil => rfl
  | cons fragments lists ih =>
      cases lists with
      | nil => simp
      | cons next lists => simp [List.intercalate_cons_cons, occurrences, ih]

theorem write_intercalate (separator : String) (lists : List (List Fragment)) (trace : Trace) :
    write ([fixed separator].intercalate lists) trace =
      separator.intercalate (writeEach lists trace) := by
  induction lists generalizing trace with
  | nil => rfl
  | cons fragments lists ih =>
      cases lists with
      | nil => simp [writeEach]
      | cons next lists =>
          have rest := ih (trace ++ (occurrences fragments).map Occurrence.event)
          rw [writeEach] at rest
          rw [List.intercalate_cons_cons, List.append_assoc, write_append, List.singleton_append,
            write, rest, writeEach, writeEach, String.intercalate_cons_cons, String.append_assoc]

theorem writeEach_map_append (back : String) (lists : List (List Fragment)) (trace : Trace) :
    writeEach (lists.map (· ++ [fixed back])) trace =
      (writeEach lists trace).map (· ++ back) := by
  induction lists generalizing trace with
  | nil => rfl
  | cons fragments lists ih =>
      rw [List.map_cons, writeEach, writeEach, List.map_cons, ih, write_append, write, write,
        String.append_empty, occurrences_append, occurrences, occurrences, List.append_nil]

theorem writeEach_fixed (texts : List String) (trace : Trace) :
    writeEach (texts.map fun text => [fixed text]) trace = texts := by
  induction texts generalizing trace with
  | nil => rfl
  | cons text texts ih => rw [List.map_cons, writeEach, ih, write, write, String.append_empty]

theorem writeEach_append_fixed (lists : List (List Fragment)) (texts : List String)
    (trace : Trace) :
    writeEach (lists ++ texts.map fun text => [fixed text]) trace =
      writeEach lists trace ++ texts := by
  induction lists generalizing trace with
  | nil => exact writeEach_fixed texts trace
  | cons fragments lists ih =>
      rw [List.cons_append, writeEach, writeEach, ih, List.cons_append]

end Fragment

/-! ## Runs that lay out occurrences -/

/-- A successful run gives what is planned for its trace, and works out occurrences in turn. -/
def Plans {α : Type} (run : Render α) (plan : Trace → α) (os : List Occurrence) : Prop :=
  ∀ trace answer left, run trace = .ok answer left →
    answer = plan trace ∧ left = trace ++ os.map Occurrence.event

/--
The text of a successful run is laid out as fragments with the occurrences.
The fragments are the same on every trace, so that no fixed one can show what
an evaluation gave.
-/
def Lays (run : Render String) (os : List Occurrence) : Prop :=
  ∃ fragments, Fragment.occurrences fragments = os ∧ Plans run (Fragment.write fragments) os

/-- The texts of a successful run are laid out, from left to right, with the occurrences. -/
def LaysEach (run : Render (List String)) (os : List Occurrence) : Prop :=
  ∃ lists, lists.flatMap Fragment.occurrences = os ∧ Plans run (Fragment.writeEach lists) os

/-- The run answers or fails at once, without a look at the trace. -/
def Settled {α : Type} (run : Render α) : Prop :=
  (∃ a, run = pure a) ∨ ∃ fault, run = throw fault

section Runs

variable {α β : Type} {os more : List Occurrence}

namespace Plans

variable {run : Render α} {plan : Trace → α}

theorem pure (answer : α) : Plans (Pure.pure answer : Render α) (fun _ => answer) [] := by
  intro trace found left done
  obtain ⟨rfl, rfl⟩ := Outcome.pure_ok done
  exact ⟨rfl, (List.append_nil trace).symm⟩

theorem bind {next : α → Render β} {then_ : α → Trace → β} (first : Plans run plan os)
    (follows : ∀ a, Plans (next a) (then_ a) more) :
    Plans (run >>= next)
      (fun trace => then_ (plan trace) (trace ++ os.map Occurrence.event)) (os ++ more) := by
  intro trace answer left done
  obtain ⟨a, between, ran, done⟩ := Outcome.bind_ok done
  obtain ⟨rfl, rfl⟩ := first trace a between ran
  obtain ⟨rfl, rfl⟩ := follows (plan trace) _ answer left done
  exact ⟨rfl, by rw [List.map_append, List.append_assoc]⟩

/-- What is answered in the end is planned as well. -/
theorem map (planned : Plans run plan os) (f : α → β) :
    Plans (run >>= fun a => Pure.pure (f a)) (fun trace => f (plan trace)) os := by
  have followed := planned.bind fun a => Plans.pure (f a)
  rwa [List.append_nil] at followed

theorem congr {plan' : Trace → α} (planned : Plans run plan os)
    (same : ∀ trace, plan trace = plan' trace) : Plans run plan' os :=
  funext same ▸ planned

end Plans

namespace Lays

variable {run rest : Render String}

theorem fixed (text : String) : Lays (pure text) [] :=
  ⟨[.fixed text], rfl, (Plans.pure text).congr fun _ => (String.append_empty).symm⟩

/-- A run that always fails may be taken to lay out anything. -/
theorem never (os : List Occurrence) (fails : ∀ trace text left, run trace ≠ .ok text left) :
    Lays run os := by
  have places : Fragment.occurrences (os.map .place) = os := by
    induction os with
    | nil => rfl
    | cons o os ih => rw [List.map_cons, Fragment.occurrences, ih]
  exact ⟨os.map .place, places, fun trace text left done => absurd done (fails trace text left)⟩

theorem throw (fault : RenderFault) (os : List Occurrence) :
    Lays (MonadExcept.throw fault) os :=
  never os nofun

/-- A check in front of the text may end the run. -/
theorem guarded {α : Type} (fails : Prop) [Decidable fails] {fault : RenderFault}
    {next : α → Render String} (lays : Lays run os) :
    Lays (if fails then ((MonadExcept.throw fault : Render α) >>= next) else run) os := by
  split
  · exact never os nofun
  · exact lays

theorem bind_throw {α : Type} (first : Render α) (fault : RenderFault) (os : List Occurrence) :
    Lays (first >>= fun _ => MonadExcept.throw fault) os := by
  refine never os fun trace text left done => ?_
  obtain ⟨_, _, -, failed⟩ := Outcome.bind_ok done
  cases failed

/-- A text behind a fixed one. -/
theorem behind (front : String) (lays : Lays run os) :
    Lays (run >>= fun text => pure (front ++ text)) os := by
  obtain ⟨fragments, rfl, planned⟩ := lays
  exact ⟨.fixed front :: fragments, rfl, planned.map (front ++ ·)⟩

/-- A text in front of a fixed one. -/
theorem ahead (back : String) (lays : Lays run os) :
    Lays (run >>= fun text => pure (text ++ back)) os := by
  obtain ⟨fragments, rfl, planned⟩ := lays
  refine ⟨fragments ++ [.fixed back], by simp [Fragment.occurrences], ?_⟩
  refine (planned.map (· ++ back)).congr fun trace => ?_
  rw [Fragment.write_append, Fragment.write, Fragment.write, String.append_empty]

/-- A text and then another. -/
theorem append (lays : Lays run os) (follows : Lays rest more) :
    Lays (run >>= fun left => rest >>= fun right => pure (left ++ right)) (os ++ more) := by
  obtain ⟨front, rfl, planned⟩ := lays
  obtain ⟨back, rfl, plannedRest⟩ := follows
  refine ⟨front ++ back, Fragment.occurrences_append front back, ?_⟩
  refine (planned.bind fun left => plannedRest.map (left ++ ·)).congr fun trace => ?_
  rw [Fragment.write_append]

/-- A text and then other texts. -/
theorem cons {each : Render (List String)} (lays : Lays run os) (follows : LaysEach each more) :
    LaysEach (run >>= fun text => each >>= fun texts => pure (text :: texts)) (os ++ more) := by
  obtain ⟨fragments, rfl, planned⟩ := lays
  obtain ⟨lists, rfl, plannedRest⟩ := follows
  exact ⟨fragments :: lists, List.flatMap_cons,
    planned.bind fun text => plannedRest.map (text :: ·)⟩

/-- A check comes before the text. -/
theorem after {α : Type} {check : Render α} {next : α → Render String}
    (settled : Settled check) (follows : ∀ a, Lays (next a) os) : Lays (check >>= next) os := by
  rcases settled with ⟨a, rfl⟩ | ⟨fault, rfl⟩
  · rw [pure_bind]
    exact follows a
  · exact throw fault os

end Lays

namespace LaysEach

variable {each : Render (List String)}

theorem nil : LaysEach (pure []) [] :=
  ⟨[], rfl, Plans.pure []⟩

/-- Texts with a separator between them. -/
theorem intercalate (separator : String) (lays : LaysEach each os) :
    Lays (each >>= fun texts => pure (separator.intercalate texts)) os := by
  obtain ⟨lists, rfl, planned⟩ := lays
  have places := Fragment.occurrences_intercalate separator lists
  refine ⟨[.fixed separator].intercalate lists, places, ?_⟩
  exact (planned.map separator.intercalate).congr fun trace =>
    (Fragment.write_intercalate separator lists trace).symm

/-- Texts with a separator between them and fixed texts around them, by their number. -/
theorem enclose {f : List String → String}
    (shape : ∀ n, ∃ front between back : String, ∀ texts : List String, texts.length = n →
      f texts = front ++ between.intercalate texts ++ back)
    (lays : LaysEach each os) : Lays (each >>= fun texts => pure (f texts)) os := by
  obtain ⟨lists, rfl, planned⟩ := lays
  -- how many texts there are does not depend on the trace, and so the shape is fixed
  obtain ⟨front, between, back, written⟩ := shape lists.length
  have places : Fragment.occurrences
      ((Fragment.fixed front :: [.fixed between].intercalate lists) ++ [.fixed back]) =
        lists.flatMap Fragment.occurrences := by
    simp [Fragment.occurrences, Fragment.occurrences_intercalate]
  refine ⟨_, places, (planned.map f).congr fun trace => ?_⟩
  rw [written _ (Fragment.length_writeEach lists trace), Fragment.write_append, Fragment.write,
    Fragment.write_intercalate, Fragment.write, Fragment.write, String.append_empty]

/-- Texts with a fixed one behind each. -/
theorem map_ahead (back : String) (lays : LaysEach each os) :
    LaysEach (each >>= fun texts => pure (texts.map (· ++ back))) os := by
  obtain ⟨lists, rfl, planned⟩ := lays
  have places : (lists.map (· ++ [.fixed back])).flatMap Fragment.occurrences =
      lists.flatMap Fragment.occurrences := by
    simp [List.flatMap_map, Fragment.occurrences]
  refine ⟨_, places, (planned.map (List.map (· ++ back))).congr fun trace => ?_⟩
  exact (Fragment.writeEach_map_append back lists trace).symm

/-- Texts with fixed ones behind them. -/
theorem append_fixed (texts : List String) (lays : LaysEach each os) :
    LaysEach (each >>= fun front => pure (front ++ texts)) os := by
  obtain ⟨lists, rfl, planned⟩ := lays
  have places : (lists ++ texts.map fun text => [Fragment.fixed text]).flatMap
      Fragment.occurrences = lists.flatMap Fragment.occurrences := by
    simp [List.flatMap_map, Fragment.occurrences]
  refine ⟨_, places, (planned.map (· ++ texts)).congr fun trace => ?_⟩
  exact (Fragment.writeEach_append_fixed lists texts trace).symm

end LaysEach

end Runs

end SqlBuilder
