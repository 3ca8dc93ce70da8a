import SqlBuilder.Proofs.Compound
import SqlBuilder.Proofs.Enclosure
import SqlBuilder.Proofs.Literal
import SqlBuilder.Proofs.Reachable

/-!
# Unions read back

`UNION` and `UNION ALL` bind alike and from the left, and parentheses set an
operand apart.  Read by this rule, a statement that was rendered gives the tree
that was written.  It is the tree of the statement exactly if every member with
a union of its own stands in parentheses.
-/

namespace SqlBuilder

open Factor

/-! ## Reading -/

/-- The parts of a compound as they are written. -/
inductive Lexeme where
  /-- A statement without its union and without its ending. -/
  | single (s : Statement) (text : String)
  | combine (all : Bool)
  | opening
  | closing
  /-- The order, the counts and the lock of the union in front of it. -/
  | ending (text : String)

namespace Lexeme

def text : Lexeme → String
  | .single _ text => text
  | .combine all => if all then " UNION ALL " else " UNION "
  | .opening => "("
  | .closing => ")"
  | .ending text => text

/-- The text that the parts make up. -/
def spell (lexemes : List Lexeme) : String :=
  String.join (lexemes.map text)

@[simp] theorem spell_nil : spell [] = "" :=
  rfl

@[simp] theorem spell_cons (first : Lexeme) (others : List Lexeme) :
    spell (first :: others) = first.text ++ spell others := by
  simp [spell]

@[simp] theorem spell_append (front back : List Lexeme) :
    spell (front ++ back) = spell front ++ spell back := by
  simp [spell]

end Lexeme

/-- A reader of compounds, with what stands in front of each parenthesis that is open. -/
inductive Reader where
  /-- An operand comes next. -/
  | awaits (pending : Pending) (outer : List Pending)
  /-- The chain may go on. -/
  | holds (done : Compound) (outer : List Pending)
  /-- An ending was read, and nothing but a parenthesis may follow it. -/
  | ended (done : Compound) (outer : List Pending)

namespace Reader

/--
Read one part.  An operand is at once combined with all that stands in front
of it up to the parenthesis, so that `UNION` and `UNION ALL` bind alike and from
the left.
-/
def step : Reader → Lexeme → Option Reader
  | .awaits pending outer, .single s _ => some (.holds (pending.join (.single s)) outer)
  | .awaits pending outer, .opening => some (.awaits none (pending :: outer))
  | .holds done outer, .combine all => some (.awaits (some (done, all)) outer)
  | .holds done outer, .ending _ => some (.ended done outer)
  | .holds done (pending :: outer), .closing => some (.holds (pending.join done) outer)
  | .ended done (pending :: outer), .closing => some (.holds (pending.join done) outer)
  | _, _ => none

def run (reader : Reader) (lexemes : List Lexeme) : Option Reader :=
  lexemes.foldlM step reader

theorem run_cons {reader next : Reader} {first : Lexeme} (step : reader.step first = some next)
    (others : List Lexeme) : reader.run (first :: others) = next.run others := by
  rw [run, List.foldlM_cons, step]
  rfl

theorem run_append (reader : Reader) (front back : List Lexeme) :
    reader.run (front ++ back) = reader.run front >>= fun reader => reader.run back :=
  List.foldlM_append

/-- What was read, if no parenthesis is open. -/
def result? : Reader → Option Compound
  | .holds done [] => some done
  | .ended done [] => some done
  | _ => none

end Reader

/-- Read a compound. -/
def Compound.read? (lexemes : List Lexeme) : Option Compound :=
  (Reader.awaits none []).run lexemes >>= Reader.result?

/-! ## Writing -/

namespace Scope

/-- The parts of an ending, if there is one. -/
def endingLexemes (text : String) : List Lexeme :=
  if text = "" then [] else [.ending text]

theorem spell_endingLexemes (text : String) : Lexeme.spell (endingLexemes text) = text := by
  unfold endingLexemes
  split
  · simp [*]
  · simp [Lexeme.text]

/-- The parts of a member that stands apart. -/
def parenthesized (inner : List Lexeme) : List Lexeme :=
  .opening :: inner ++ [.closing]

mutual

/-- A statement in parts. -/
def lexemes (scope : Scope) : Statement → Render (List Lexeme)
  | ⟨h, ps, js, rs, as, ms, bs⟩ => do
    let s : Statement := ⟨h, ps, js, rs, as, ms, bs⟩
    if s.selects then
      let limit ← h.selectLimit
      let offset ← Count.offset.check h.offset
      let first ← scope.core h limit offset (scope.joins js) (scope.wheres s)
      let others ← unionLexemes scope ms
      let last ← scope.ending h limit offset
      return .single s first :: others ++ endingLexemes last
    else
      return [.single s (← scope.statement s)]
termination_by structural s => s

/-- The members of a union in parts. -/
def unionLexemes (scope : Scope) : List UnionMember → Render (List Lexeme)
  | [] => return []
  | ⟨s, all⟩ :: others => do
    let operand ← scope.memberWith s.toHeader parenthesized (lexemes scope s)
    let rest ← unionLexemes scope others
    return .combine all :: operand ++ rest
termination_by structural members => members

end

variable {scope : Scope}

theorem member_eq_spell (h : Header) {statement : Render String} {lexemes : Render (List Lexeme)}
    (same : statement = Lexeme.spell <$> lexemes) :
    scope.member h statement = Lexeme.spell <$> scope.memberWith h parenthesized lexemes := by
  subst same
  have map_throw (fault : RenderFault) :
      Lexeme.spell <$> (throw fault : Render (List Lexeme)) = throw fault := rfl
  unfold member memberWith parenthesized
  rw [← Header.standsApart]
  cases h.locked <;> cases h.standsApart <;> cases scope.grammar.parenthesizesMembers <;>
    simp [Lexeme.text, String.append_assoc, map_throw]

mutual

/-- The parts of a statement spell its text. -/
theorem statement_eq_spell : ∀ s : Statement,
    scope.statement s = Lexeme.spell <$> scope.lexemes s
  | ⟨h, ps, js, rs, as, ms, bs⟩ => by
      cases selects : Statement.selects ⟨h, ps, js, rs, as, ms, bs⟩ with
      | false => simp [lexemes, selects, Lexeme.text]
      | true =>
          rw [statement_of_selects (List.contains_iff_mem.mp selects), select_eq, lexemes]
          simp only [selects, if_true, members_eq_spell ms, map_bind, bind_map_left, map_pure,
            Lexeme.spell_append, Lexeme.spell_cons, spell_endingLexemes, Lexeme.text,
            String.append_assoc]
termination_by structural s => s

theorem members_eq_spell : ∀ ms : List UnionMember,
    scope.members ms = Lexeme.spell <$> scope.unionLexemes ms
  | [] => by simp [members, unionLexemes]
  | ⟨s, all⟩ :: others => by
      simp only [members, unionLexemes, members_eq_spell others,
        member_eq_spell s.toHeader (statement_eq_spell s), map_bind, bind_map_left, map_pure,
        Lexeme.spell_append, Lexeme.spell_cons, Lexeme.text]
termination_by structural ms => ms

end

/-! ## What the reader gets -/

/-- What is not to stand apart ends with its union. -/
theorem ending_of_bare {g : Grammar} {names : List (Option String)} {escapes : Bool}
    (builtIn : g.BuiltIn escapes) {h : Header} (unlocked : h.locked = false)
    (bare : h.standsApart = false) {limit offset : Option Nat}
    (limited : Yields h.selectLimit limit) (skipped : Yields (Count.offset.check h.offset) offset)
    {last : String} (yields : Yields ((⟨g, names⟩ : Scope).ending h limit offset) last) :
    last = "" := by
  simp only [Header.standsApart, Header.isBounded, Bool.or_eq_false_iff, Bool.not_eq_false',
    Option.isSome_eq_false_iff, Option.isNone_iff_eq_none] at bare
  obtain ⟨plain, ⟨unordered, noLimit⟩, noOffset⟩ := bare
  have ordered : h.isOrdered = false := by simp [Header.isOrdered, plain, unordered]
  rw [Header.selectLimit, plain, noLimit] at limited
  rw [noOffset] at skipped
  cases yields_pure limited
  cases yields_pure skipped
  obtain ⟨sorted, written, yields⟩ := yields_bind yields
  rw [order, ordered] at written
  cases yields_pure written
  rw [← yields_pure yields]
  simp only [lockSuffix, unlocked, pagination, ordered]
  cases builtIn with
  | plain => rfl
  | dialect d => cases d <;> rfl

theorem result_ending (done : Compound) (last : String) :
    ((Reader.holds done []).run (endingLexemes last) >>= Reader.result?) = some done := by
  unfold endingLexemes
  split <;> rfl

/-- An ending in parentheses belongs to what is in them. -/
theorem run_closing (done : Compound) (pending : Pending) (outer : List Pending) (last : String) :
    (Reader.holds done (pending :: outer)).run (endingLexemes last ++ [.closing]) =
      some (.holds (pending.join done) outer) := by
  unfold endingLexemes
  split <;> rfl

section Reading

variable {g : Grammar} {names : List (Option String)} {escapes : Bool}

/--
The reader gets the written tree behind anything that stands in front of it.
An ending is left over only if the statement has to stand apart.
-/
def ReadsAs (s : Statement) (whole : List Lexeme) : Prop :=
  ∃ front last, whole = front ++ endingLexemes last ∧
    (s.locked = false → s.standsApart = false → last = "") ∧
    ∀ pending outer, (Reader.awaits pending outer).run front =
      some (.holds (s.tree (fun m => m.standsApart) pending) outer)

/-- A member with its parentheses is read as one operand, without them it goes on with the chain. -/
theorem run_member {m : UnionMember} {scope : Scope} {whole : List Lexeme}
    (reads : ∀ inner, Yields (scope.lexemes m.statement) inner → ReadsAs m.statement inner)
    (yields : Yields (scope.memberWith m.statement.toHeader parenthesized
      (scope.lexemes m.statement)) whole) (done : Compound) (outer : List Pending) :
    (Reader.awaits (some (done, m.all)) outer).run whole =
      some (.holds (if m.statement.standsApart
        then .combined done m.all (m.statement.tree (fun m => m.standsApart) none)
        else m.statement.tree (fun m => m.standsApart) (some (done, m.all))) outer) := by
  obtain ⟨admitted, inner, written, rfl⟩ := yields_memberWith yields
  obtain ⟨front, last, rfl, ends, run⟩ := reads inner written
  cases apart : m.statement.standsApart with
  | false =>
      -- Without an ending of its own the member leaves the chain open.
      rw [ends admitted.unlocked apart]
      simpa [endingLexemes] using run (some (done, m.all)) outer
  | true =>
      -- What stands in front is put aside until the parenthesis closes.
      have opened : (Reader.awaits (some (done, m.all)) outer).step .opening =
          some (.awaits none (some (done, m.all) :: outer)) := rfl
      rw [if_pos rfl, if_pos rfl, parenthesized, List.cons_append, List.append_assoc,
        Reader.run_cons opened, Reader.run_append, run none]
      exact run_closing _ _ _ _

mutual

/-- A statement in parts reads as its written tree. -/
theorem reads_statement (builtIn : g.BuiltIn escapes) : ∀ (s : Statement) (whole : List Lexeme),
    Yields ((⟨g, names⟩ : Scope).lexemes s) whole → ReadsAs s whole
  | ⟨h, ps, js, rs, as, ms, bs⟩, whole, yields => by
      rw [lexemes] at yields
      cases selects : Statement.selects ⟨h, ps, js, rs, as, ms, bs⟩ with
      | false =>
          rw [selects] at yields
          obtain ⟨text, -, yields⟩ := yields_bind yields
          refine ⟨whole, "", by simp [endingLexemes], fun _ _ => rfl, fun pending outer => ?_⟩
          rw [← yields_pure yields, Statement.tree, selects]
          rfl
      | true =>
          rw [selects] at yields
          obtain ⟨limit, limited, yields⟩ := yields_bind yields
          obtain ⟨offset, skipped, yields⟩ := yields_bind yields
          obtain ⟨first, -, yields⟩ := yields_bind yields
          obtain ⟨others, united, yields⟩ := yields_bind yields
          obtain ⟨last, ended, yields⟩ := yields_bind yields
          refine ⟨.single _ first :: others, last, (yields_pure yields).symm,
            fun unlocked bare => ending_of_bare builtIn unlocked bare limited skipped ended,
            fun pending outer => ?_⟩
          rw [Reader.run_cons rfl, Statement.tree, selects]
          exact reads_union builtIn ms others united _ outer
termination_by structural s => s

/-- The members of a union in parts are combined one after the other. -/
theorem reads_union (builtIn : g.BuiltIn escapes) :
    ∀ (ms : List UnionMember) (whole : List Lexeme),
    Yields ((⟨g, names⟩ : Scope).unionLexemes ms) whole → ∀ done outer,
      (Reader.holds done outer).run whole =
        some (.holds (Statement.memberTree (fun m => m.standsApart) done ms) outer)
  | [], whole, yields, done, outer => by
      rw [← yields_pure yields]
      rfl
  | ⟨s, all⟩ :: others, whole, yields, done, outer => by
      obtain ⟨operand, member, yields⟩ := yields_bind yields
      obtain ⟨rest, united, yields⟩ := yields_bind yields
      rw [← yields_pure yields, List.cons_append, Reader.run_cons rfl, Reader.run_append,
        run_member (m := ⟨s, all⟩) (reads_statement builtIn s) member]
      exact reads_union builtIn others rest united _ outer
termination_by structural ms => ms

end

end Reading

end Scope

/-! ## The tree that is read -/

namespace Statement

/--
A statement that was rendered by a built-in grammar has parts that spell its
text, and read from the left they give the tree that was written.  This is the
tree of the statement if and only if every member with a union of its own has
to stand apart, and so is in parentheses.
-/
theorem union_reads_back {g : Grammar} {escapes : Bool} (builtIn : g.BuiltIn escapes)
    (s : Statement) {trace left : Trace} {sql : String}
    (rendered : s.sqlIn g trace = .ok sql left) :
    ∃ lexemes, (s.scope g).lexemes s trace = .ok lexemes left ∧ Lexeme.spell lexemes = sql ∧
      Compound.read? lexemes = some s.written ∧
      (Compound.read? lexemes = some s.compound ↔
        s.unionsApart (fun m => m.standsApart) = true) := by
  rw [sqlIn, Scope.statement_eq_spell, map_eq_pure_bind] at rendered
  obtain ⟨lexemes, between, run, rendered⟩ := Outcome.bind_ok rendered
  obtain ⟨rfl, rfl⟩ := Outcome.pure_ok rendered
  obtain ⟨front, last, rfl, -, reads⟩ := Scope.reads_statement builtIn s lexemes ⟨_, _, run⟩
  have read : Compound.read? (front ++ Scope.endingLexemes last) = some s.written := by
    rw [Compound.read?, Reader.run_append, reads none []]
    exact Scope.result_ending _ last
  refine ⟨_, run, rfl, read, ?_⟩
  rw [read, Option.some_inj]
  exact s.written_eq_compound_iff

/-- A statement that selects from `c`, in a union of its own with a limit. -/
def shortlist : Statement :=
  { ({} : Config).selection with
    tables := [.text "c"]
    members := [⟨{ ({} : Config).selection with tables := [.text "d"] }, true⟩]
    limit := some 2 }

/-- A statement that selects from `a`, in a union with one without and one with a limit. -/
def candidates : Statement :=
  { ({} : Config).selection with
    tables := [.text "a"]
    members := [
      ⟨{ ({} : Config).selection with tables := [.text "b"] }, true⟩,
      ⟨shortlist, false⟩] }

theorem union_reads_back_candidates :
    candidates.sqlIn .postgres [] = .ok ("SELECT * FROM \"a\" UNION ALL SELECT * FROM \"b\"" ++
        " UNION (SELECT * FROM \"c\" UNION ALL SELECT * FROM \"d\" LIMIT 2)") [] ∧
      ∃ lexemes, (candidates.scope .postgres).lexemes candidates [] = .ok lexemes [] ∧
        Compound.read? lexemes = some candidates.compound := by
  have rendered : candidates.sqlIn .postgres [] =
      .ok ("SELECT * FROM \"a\" UNION ALL SELECT * FROM \"b\"" ++
        " UNION (SELECT * FROM \"c\" UNION ALL SELECT * FROM \"d\" LIMIT 2)") [] := rfl
  obtain ⟨lexemes, run, -, -, same⟩ := union_reads_back (.dialect .postgres) candidates rendered
  exact ⟨rendered, lexemes, run, same.mpr rfl⟩

/-! ## A union that is taken in -/

/-- A statement that selects all from a table, made by calls. -/
def selecting (config : Config) (table : String) : Statement :=
  ((Call.runAll false [.select [], .tables [.text table]]).after
    { statement := config.statement }).statement

/-- The statement in a union with another, made by a call. -/
def unitedWith (s : Statement) (all : Bool) (member : Statement) : Statement :=
  ((Call.union all member).run.after { statement := s }).statement

theorem reachable_selecting (config : Config) (table : String) :
    (selecting config table).Reachable := by
  refine .runAll false _ _ (.fresh config) ⟨?_, fun _ _ => ⟨?_, fun _ _ => trivial⟩⟩ <;>
    exact ⟨trivial, fun _ mem => (nomatch mem), fun _ mem => (nomatch mem)⟩

theorem Reachable.unitedWith {s member : Statement} (reach : s.Reachable) (all : Bool)
    (inner : member.Reachable) : (s.unitedWith all member).Reachable := by
  refine .call _ reach rfl trivial (fun _ mem => nomatch mem) fun other mem => ?_
  rw [List.mem_singleton.mp mem]
  exact inner

/-- A union of `a` with the union of `b` and `c`. -/
def grouped : Statement :=
  (selecting {} "a").unitedWith true ((selecting {} "b").unitedWith false (selecting {} "c"))

/-- The union of `b` and `c` is written without parentheses, and is read as part of the chain. -/
theorem inner_union_is_spliced :
    grouped.Reachable ∧ grouped.kind = .select ∧
      ∃ lexemes, (grouped.scope .postgres).lexemes grouped [] = .ok lexemes [] ∧
        Lexeme.spell lexemes =
          "SELECT * FROM \"a\" UNION ALL SELECT * FROM \"b\" UNION SELECT * FROM \"c\"" ∧
        Compound.read? lexemes ≠ some grouped.compound := by
  have reach (table : String) : (selecting {} table).Reachable := reachable_selecting {} table
  have inner := (reach "b").unitedWith false (reach "c")
  refine ⟨(reach "a").unitedWith true inner, rfl, _, rfl, rfl, ?_⟩
  intro same
  cases same

end Statement

end SqlBuilder
