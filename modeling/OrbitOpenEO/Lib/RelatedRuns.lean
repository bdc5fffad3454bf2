import OrbitOpenEO.Lib.Effect

/-!
# Runs from related states

Two executions of one piece of code end alike when both return the same value or fail
with the same error, and leave related states.  Code whose executions from related states
always end alike does not see what related states may differ in.
-/

namespace OrbitOpenEO
namespace Lib

variable {ε σ α β : Type} {R : σ → σ → Prop}

/-- Both executions have returned one value or failed with one error, and have left
related states. -/
def EndAlike (R : σ → σ → Prop) : EStateM.Result ε σ α → EStateM.Result ε σ α → Prop
  | .ok a s, .ok b t => a = b ∧ R s t
  | .error e s, .error e' t => e = e' ∧ R s t
  | _, _ => False

/-- From related states the executions of the code end alike. -/
def Respects (R : σ → σ → Prop) (x : EStateM ε σ α) : Prop :=
  ∀ s t, R s t → EndAlike R (x s) (x t)

theorem respects_pure (a : α) : Respects R (pure a : EStateM ε σ α) :=
  fun _ _ h => ⟨rfl, h⟩

theorem respects_throw (e : ε) : Respects R (throw e : EStateM ε σ α) :=
  fun _ _ h => ⟨rfl, h⟩

/-- The rule for a sequence: the rest is run on a value that the first part can return. -/
theorem Respects.bind {Q : α → Prop} {x : EStateM ε σ α} {f : α → EStateM ε σ β}
    (hx : Respects R x) (hreturns : Returns Q x) (hf : ∀ a, Q a → Respects R (f a)) :
    Respects R (x >>= f) := by
  intro s t h
  have hends := hx s t h
  simp only [Bind.bind, EStateM.bind]
  cases hs : x s with
  | ok a s' =>
      rw [hs] at hends
      cases ht : x t with
      | ok b t' =>
          rw [ht] at hends
          obtain ⟨rfl, hafter⟩ := hends
          exact hf a (hreturns s a s' hs) s' t' hafter
      | error e t' =>
          rw [ht] at hends
          cases hends
  | error e s' =>
      rw [hs] at hends
      cases ht : x t with
      | ok b t' =>
          rw [ht] at hends
          cases hends
      | error e' t' =>
          rw [ht] at hends
          exact hends

/-- A sequence whose second part respects the relation on every value. -/
theorem Respects.andThen {x : EStateM ε σ α} {f : α → EStateM ε σ β} (hx : Respects R x)
    (hf : ∀ a, Respects R (f a)) : Respects R (x >>= f) :=
  hx.bind (Q := fun _ => True) (fun _ _ _ _ => trivial) fun a _ => hf a

/-- A result made of the value that the code returns. -/
theorem Respects.thenPure {x : EStateM ε σ α} {g : α → β} (hx : Respects R x) :
    Respects R (x >>= fun a => pure (g a)) :=
  hx.andThen fun a => respects_pure (g a)

theorem respects_attempt (x : Except ε α) : Respects R (attempt x : EStateM ε σ α) := by
  cases x with
  | ok a => exact respects_pure a
  | error e => exact respects_throw e

/-- Code behind a check that does not look at the state. -/
theorem respects_attempt_bind {x : Except ε β} {f : β → EStateM ε σ α}
    (hf : ∀ b, x = .ok b → Respects R (f b)) :
    Respects R ((attempt x : EStateM ε σ β) >>= f) :=
  (respects_attempt x).bind (returns_attempt fun _ h => h) hf

/-- A loop respects what each of its rounds does. -/
theorem respects_mapEach {f : α → EStateM ε σ β} {xs : List α}
    (hround : ∀ x ∈ xs, Respects R (f x)) : Respects R (mapEach f xs) := by
  induction xs with
  | nil =>
      exact respects_pure []
  | cons x xs ih =>
      rw [List.forall_mem_cons] at hround
      exact hround.1.andThen fun y => (ih hround.2).thenPure

end Lib
end OrbitOpenEO
