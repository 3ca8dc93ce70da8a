import SqlBuilder.Trace

/-!
# Outcomes of sequences

A sequence of steps answers if each of its steps does, and fails with the
first step that fails.  This is said here for plain checks and for actions
with a state, so that longer computations can be taken apart step by step.
-/

namespace SqlBuilder

namespace Outcome

section Checks

variable {ε φ α β : Type} {first : Except ε α} {next : α → Except ε β}

theorem except_bind_ok {b : β} (done : (first >>= next) = .ok b) :
    ∃ a, first = .ok a ∧ next a = .ok b := by
  cases first with
  | ok a => exact ⟨a, rfl, done⟩
  | error e => cases done

theorem mapError_ok {f : ε → φ} {a : α} (done : first.mapError f = .ok a) : first = .ok a := by
  cases first with
  | ok b =>
      cases done
      rfl
  | error e => cases done

theorem except_of_toOption {a : α} (answers : first.toOption = some a) : first = .ok a := by
  cases first with
  | ok b => exact congrArg Except.ok (Option.some.inj answers)
  | error e => cases answers

/-- What each step of a fold keeps, the fold keeps. -/
theorem foldlM_keeps {P : β → Prop} {step : β → α → Except ε β}
    (keeps : ∀ before a after, P before → step before a = .ok after → P after) {as : List α}
    {before after : β} (start : P before) (done : as.foldlM step before = .ok after) :
    P after := by
  induction as generalizing before with
  | nil =>
      cases done
      exact start
  | cons a as ih =>
      rw [List.foldlM_cons] at done
      obtain ⟨between, head, tail⟩ := except_bind_ok done
      exact ih (keeps before a between start head) tail

end Checks

section Actions

variable {ε σ α β : Type} {first : EStateM ε σ α} {next : α → EStateM ε σ β}

theorem bind_of_ok {s t : σ} {a : α} (run : first s = .ok a t) :
    (first >>= next) s = next a t := by
  change EStateM.bind first next s = _
  unfold EStateM.bind
  rw [run]

theorem bind_of_error {s t : σ} {e : ε} (run : first s = .error e t) :
    (first >>= next) s = .error e t := by
  change EStateM.bind first next s = _
  unfold EStateM.bind
  rw [run]

/-- Sequences may be regrouped. -/
theorem bind_assoc {γ : Type} (last : β → EStateM ε σ γ) :
    (first >>= next >>= last) = first >>= fun a => next a >>= last := by
  funext s
  cases start : first s with
  | ok a t =>
      rw [bind_of_ok start]
      cases second : next a t with
      | ok b u =>
          rw [bind_of_ok second]
          exact bind_of_ok ((bind_of_ok start).trans second)
      | error e u =>
          rw [bind_of_error second]
          exact bind_of_error ((bind_of_ok start).trans second)
  | error e t =>
      rw [bind_of_error start]
      exact bind_of_error (bind_of_error start)

/-- A sequence that answers passed through an answer of its first step. -/
theorem bind_ok {s t : σ} {b : β} (run : (first >>= next) s = .ok b t) :
    ∃ a u, first s = .ok a u ∧ next a u = .ok b t := by
  cases start : first s with
  | ok a u => exact ⟨a, u, rfl, by rwa [bind_of_ok start] at run⟩
  | error e u =>
      rw [bind_of_error start] at run
      cases run

/-- A sequence that fails did so in its first step, or after an answer of it. -/
theorem bind_error {s t : σ} {e : ε} (run : (first >>= next) s = .error e t) :
    first s = .error e t ∨ ∃ a u, first s = .ok a u ∧ next a u = .error e t := by
  cases start : first s with
  | ok a u => exact Or.inr ⟨a, u, rfl, by rwa [bind_of_ok start] at run⟩
  | error e' u =>
      rw [bind_of_error start] at run
      cases run
      exact Or.inl rfl

theorem pure_ok {s t : σ} {a b : α} (run : (pure a : EStateM ε σ α) s = .ok b t) :
    a = b ∧ s = t := by
  cases run
  exact ⟨rfl, rfl⟩

end Actions

end Outcome

end SqlBuilder
