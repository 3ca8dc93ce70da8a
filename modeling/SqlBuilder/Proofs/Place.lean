import SqlBuilder.Proofs.Factor

/-!
# Places that are written

A value stands in a statement at a place: a way outward from the value
through lists, conditions, sub-queries, groups and clauses.  A place is shown
if each clause on the way is one that its statement writes.  A statement with
something in a shown place renders to a text in which that stands once,
between two texts that do not depend on it.
-/

namespace SqlBuilder

/-- The parts of a statement on the way to a value. -/
inductive Piece where
  | value
  | condition
  | statement

/-- What stands for a part. -/
abbrev Piece.Content : Piece → Type
  | .value => Value
  | .condition => Predicate
  | .statement => Statement

/-- A step outward, from a part to a part around it. -/
inductive Frame : Piece → Piece → Type where
  /-- The operand of a comparison. -/
  | operand (key : String) (column : Column) (operator : Operator) (connective : Connective) :
      Frame .value .condition
  /-- An entry of a list. -/
  | item (before after : List Value) : Frame .value .value
  /-- A sub-query as a value. -/
  | subquery (tag : Nat) : Frame .statement .value
  /-- A condition in a group that is a value. -/
  | group (tag : Nat) (inner : Statement) (before after : List Predicate) :
      Frame .condition .value
  /-- A condition in a group that stands as a condition itself. -/
  | nested (key : String) (column : Column) (connective : Connective) (tag : Nat)
      (inner : Statement) (before after : List Predicate) : Frame .condition .condition
  /-- A condition of the statement. -/
  | filter (s : Statement) (before after : List Predicate) : Frame .condition .statement
  /-- A condition of a join. -/
  | on (s : Statement) (front : List Join) (kind : JoinKind) (table : Expression)
      (before after : List Predicate) (back : List Join) : Frame .condition .statement
  /-- A field of a row. -/
  | field (s : Statement) (front : List (List Value)) (before after : List Value)
      (back : List (List Value)) : Frame .value .statement
  /-- A value that is assigned. -/
  | assigned (s : Statement) (before : List Assignment) (key : String) (column : Column)
      (after : List Assignment) : Frame .value .statement
  /-- A member of a union. -/
  | member (s : Statement) (before : List UnionMember) (all : Bool) (after : List UnionMember) :
      Frame .statement .statement

namespace Frame

/-- Put something into the frame. -/
def fill {a b : Piece} : Frame a b → a.Content → b.Content
  | .operand key column operator connective, value =>
    ⟨key, column, some operator, value, connective⟩
  | .item before after, value => .list (before ++ value :: after)
  | .subquery tag, s => .query tag s
  | .group tag inner before after, p =>
    .group tag { inner with predicates := before ++ p :: after }
  | .nested key column connective tag inner before after, p =>
    ⟨key, column, none, .group tag { inner with predicates := before ++ p :: after }, connective⟩
  | .filter s before after, p => { s with predicates := before ++ p :: after }
  | .on s front kind table before after back, p =>
    { s with joins := front ++ ⟨kind, table, before ++ p :: after⟩ :: back }
  | .field s front before after back, value =>
    { s with rows := front ++ (before ++ value :: after) :: back }
  | .assigned s before key column after, value =>
    { s with assignments := before ++ ⟨key, column, value⟩ :: after }
  | .member s before all after, inner =>
    { s with members := before ++ ⟨inner, all⟩ :: after }

/-- The statement that the frame belongs to, if any, writes the clause that the frame is in. -/
def isShown {a b : Piece} : Frame a b → Bool
  | .filter s _ _ => [.select, .random, .update, .delete].contains s.kind
  | .on s _ _ _ _ _ _ => [.select, .random].contains s.kind
  | .field s _ _ _ _ => s.kind = .insert
  | .assigned s _ _ _ _ => s.kind = .update
  | .member s _ _ _ => [.select, .random].contains s.kind
  | _ => true

end Frame

/-- The way from a place outward, the outermost step first. -/
inductive Path : Piece → Piece → Type where
  | here {a : Piece} : Path a a
  | step {a b c : Piece} (outer : Frame b c) (inner : Path a b) : Path a c

namespace Path

/-- Put something into the place. -/
def fill {a b : Piece} : Path a b → a.Content → b.Content
  | .here, content => content
  | .step outer inner, content => outer.fill (inner.fill content)

/-- Every clause on the way is written. -/
def isShown {a b : Piece} : Path a b → Bool
  | .here => true
  | .step outer inner => outer.isShown && inner.isShown

end Path

end SqlBuilder
