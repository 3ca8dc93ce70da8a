import SqlBuilder.Proofs.Outcome
import SqlBuilder.Sql.Statement

/-!
# Renderings with a hole

A family of renderings factors if its texts differ in one place only: what
stands before the place and behind it is the same throughout the family, and
so is the trace that is left.  What stands behind does not start with a single
quote, so that it cannot be taken for a part of a string literal.
-/

namespace SqlBuilder

namespace Factor

/-- The text cannot go on with a string literal that ends in front of it. -/
def EndsLiteral (rest : String) : Prop :=
  rest.toList.head? ≠ some '\''

/-- The text puts its argument between two fixed texts. -/
def Around (context : String → String) : Prop :=
  ∃ before after, EndsLiteral after ∧ ∀ inner, context inner = before ++ inner ++ after

/-- The list has one entry around its argument, between fixed entries. -/
def Among (context : String → List String) : Prop :=
  ∃ front entry back, Around entry ∧ ∀ inner, context inner = front ++ entry inner :: back

/-- A rendering has an outcome with the given result. -/
def Yields {ρ : Type} (run : Render ρ) (result : ρ) : Prop :=
  ∃ trace left, run trace = .ok result left

/--
If one member of the family renders, so do all, with the same context around
their own texts and with the same trace.
-/
def Factors {α ρ : Type} (Context : (String → ρ) → Prop) (text : α → String)
    (run : α → Render ρ) : Prop :=
  ∀ a trace result left, run a trace = .ok result left →
    ∃ context, Context context ∧ ∀ b, run b trace = .ok (context (text b)) left

/-! ## Texts that end literals -/

theorem endsLiteral_empty : EndsLiteral "" := by
  unfold EndsLiteral
  simp

theorem endsLiteral_append {left right : String} (first : EndsLiteral left)
    (second : EndsLiteral right) : EndsLiteral (left ++ right) := by
  unfold EndsLiteral at *
  rw [String.toList_append, List.head?_append]
  cases start : left.toList.head? with
  | none => simpa using second
  | some c =>
      rw [start] at first
      simpa using first

/-- What starts with another character ends a literal, whatever follows. -/
theorem endsLiteral_of_head (left right : String) {c : Char}
    (head : left.toList.head? = some c) (other : c ≠ '\'') : EndsLiteral (left ++ right) := by
  unfold EndsLiteral
  rw [String.toList_append, List.head?_append, head]
  simpa using other

theorem endsLiteral_spaced (text : Option String) : EndsLiteral (Scope.spaced text) := by
  cases text with
  | none => exact endsLiteral_empty
  | some text => exact endsLiteral_of_head " " text rfl (by decide)

/-! ## Contexts -/

theorem around_self : Around fun inner => inner :=
  ⟨"", "", endsLiteral_empty, fun inner => by simp⟩

theorem around_append_left {context : String → String} (front : String)
    (around : Around context) : Around fun inner => front ++ context inner := by
  obtain ⟨before, after, ends, eq⟩ := around
  refine ⟨front ++ before, after, ends, fun inner => ?_⟩
  change front ++ context inner = _
  rw [eq inner, String.append_assoc, String.append_assoc, String.append_assoc]

theorem around_append_right {context : String → String} {back : String}
    (around : Around context) (ends : EndsLiteral back) :
    Around fun inner => context inner ++ back := by
  obtain ⟨before, after, ends', eq⟩ := around
  refine ⟨before, after ++ back, endsLiteral_append ends' ends, fun inner => ?_⟩
  change context inner ++ back = _
  rw [eq inner, String.append_assoc]

theorem among_cons {context : String → List String} (first : String) (among : Among context) :
    Among fun inner => first :: context inner := by
  obtain ⟨front, entry, back, around, eq⟩ := among
  refine ⟨first :: front, entry, back, around, fun inner => ?_⟩
  change first :: context inner = _
  rw [eq inner, List.cons_append]

theorem among_head {context : String → String} (back : List String) (around : Around context) :
    Among fun inner => context inner :: back :=
  ⟨[], context, back, around, fun _ => rfl⟩

/-- A separator that ends literals keeps what follows a place apart from it. -/
theorem around_intercalate {context : String → List String} (separator : String) {c : Char}
    (head : separator.toList.head? = some c) (other : c ≠ '\'') (among : Among context) :
    Around fun inner => separator.intercalate (context inner) := by
  obtain ⟨front, entry, back, around, eq⟩ := among
  have behind : Around fun inner => separator.intercalate (entry inner :: back) := by
    cases back with
    | nil =>
        simpa only [String.intercalate_singleton] using around
    | cons next others =>
        simp only [String.intercalate_cons_cons, String.append_assoc]
        exact around_append_right around (endsLiteral_of_head separator _ head other)
  cases front with
  | nil =>
      simp only [eq, List.nil_append]
      exact behind
  | cons first others =>
      simp only [eq]
      have split (inner : String) :
          separator.intercalate ((first :: others) ++ entry inner :: back) =
            separator.intercalate (first :: others) ++ separator ++
              separator.intercalate (entry inner :: back) :=
        String.intercalate_append_of_ne_nil (List.cons_ne_nil _ _) (List.cons_ne_nil _ _)
      simp only [split]
      exact around_append_left _ behind

theorem around_commas {context : String → List String} (among : Among context) :
    Around fun inner => ", ".intercalate (context inner) :=
  around_intercalate ", " (c := ',') rfl (by decide) among

theorem endsLiteral_parenthesis : EndsLiteral ")" := by
  unfold EndsLiteral
  decide

theorem around_parentheses {context : String → String} (around : Around context) :
    Around fun inner => "(" ++ context inner ++ ")" :=
  around_append_right (around_append_left "(" around) endsLiteral_parenthesis

/-! ## Families -/

variable {α β ρ σ : Type} {text : α → String}

/-- What is rendered first does not belong to the family. -/
theorem Factors.after {Context : (String → ρ) → Prop} {first : Render β}
    {next : β → α → Render ρ} (factors : ∀ x, Yields first x → Factors Context text (next x)) :
    Factors Context text fun a => first >>= fun x => next x a := by
  intro a trace result left run
  obtain ⟨x, between, start, run⟩ := Outcome.bind_ok run
  obtain ⟨context, good, all⟩ := factors x ⟨trace, between, start⟩ a between result left run
  exact ⟨context, good, fun b => (Outcome.bind_of_ok start).trans (all b)⟩

/-- What follows a family uses its results around their places. -/
theorem Factors.bind {Inner : (String → σ) → Prop} {Context : (String → ρ) → Prop}
    {run : α → Render σ} {next : σ → Render ρ} (factors : Factors Inner text run)
    (follows : ∀ context, Inner context →
      Factors Context (fun inner => inner) fun inner => next (context inner)) :
    Factors Context text fun a => run a >>= next := by
  intro a trace result left ran
  obtain ⟨part, between, start, ran⟩ := Outcome.bind_ok ran
  obtain ⟨inner, good, all⟩ := factors a trace part between start
  have same : part = inner (text a) := by
    have again := (all a).symm.trans start
    cases again
    rfl
  rw [same] at ran
  obtain ⟨context, good', all'⟩ := follows inner good (text a) between result left ran
  exact ⟨context, good', fun b => (Outcome.bind_of_ok (all b)).trans (all' (text b))⟩

theorem Factors.place {Context : (String → ρ) → Prop} {context : String → ρ}
    (good : Context context) :
    Factors Context text fun a => (pure (context (text a)) : Render ρ) := by
  intro a trace result left run
  obtain ⟨-, rfl⟩ := Outcome.pure_ok run
  exact ⟨context, good, fun _ => rfl⟩

theorem Factors.done {Context : (String → ρ) → Prop} {context : String → ρ}
    (good : Context context) :
    Factors Context (fun inner => inner) fun inner => (pure (context inner) : Render ρ) :=
  Factors.place good

/-- A family that only fails factors. -/
theorem Factors.throw {Context : (String → ρ) → Prop} (fault : RenderFault) :
    Factors Context text fun _ => (throw fault : Render ρ) := by
  intro a trace result left run
  cases run

/-- A check in front of a family ends the walk or changes nothing. -/
theorem Factors.unless {Context : (String → ρ) → Prop} (fails : Prop) [Decidable fails]
    {fault : RenderFault} {next : β → α → Render ρ} {run : α → Render ρ}
    (factors : Factors Context text run) :
    Factors Context text fun a =>
      if fails then ((MonadExcept.throw fault : Render β) >>= fun x => next x a) else run a := by
  by_cases failed : fails
  · simp only [failed, if_true]
    refine Factors.after fun x yields => ?_
    obtain ⟨trace, left, run⟩ := yields
    cases run
  · simp only [failed, if_false]
    exact factors

end Factor

end SqlBuilder
