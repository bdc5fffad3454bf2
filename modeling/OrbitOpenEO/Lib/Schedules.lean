import Mathlib.Logic.Function.Iterate
import Mathlib.Tactic.Common

/-!
# Tasks that take turns

A scheduler lets tasks step in any order; a step changes the task that takes it and no other.
Where a task stands then depends only on how often it has stepped
(`getElem?_interleave`), so tasks that come to an end come to the same end under
every schedule that lets them.
-/

namespace OrbitOpenEO
namespace Lib

variable {σ β ε : Type}

/-- The tasks after those named in the schedule have stepped, one after the other. -/
def interleave (step : σ → σ) : List Nat → List σ → List σ
  | [], tasks => tasks
  | i :: schedule, tasks => interleave step schedule (tasks.modify i step)

theorem getElem?_interleave (step : σ → σ) (schedule : List Nat) (tasks : List σ) (i : Nat) :
    (interleave step schedule tasks)[i]? = tasks[i]?.map step^[schedule.count i] := by
  induction schedule generalizing tasks with
  | nil =>
      simp [interleave]
  | cons j schedule ih =>
      rw [interleave, ih, List.getElem?_modify]
      by_cases hj : j = i
      case pos =>
        subst hj
        simp only [if_true, List.count_cons_self, Option.map_eq_map, Option.map_map]
        rfl
      case neg =>
        rw [List.count_cons_of_ne hj]
        simp only [if_neg hj, Option.map_eq_map, Option.map_id']

@[simp] theorem length_interleave (step : σ → σ) (schedule : List Nat) (tasks : List σ) :
    (interleave step schedule tasks).length = tasks.length := by
  induction schedule generalizing tasks with
  | nil =>
      rfl
  | cons j schedule ih =>
      rw [interleave, ih, List.length_modify]

/-- Every task has stepped at least `n` times. -/
def Fair (n : Nat) (schedule : List Nat) (tasks : List σ) : Prop :=
  ∀ i < tasks.length, n ≤ schedule.count i

/-- The results in the order of the tasks, once all tasks are done. -/
def results (done : σ → Option β) : List σ → Option (List β)
  | [] => some []
  | t :: tasks => do
      let b ← done t
      let bs ← results done tasks
      some (b :: bs)

theorem results_eq_some_iff {done : σ → Option β} {tasks : List σ} {bs : List β} :
    results done tasks = some bs ↔ tasks.map done = bs.map some := by
  induction tasks generalizing bs with
  | nil =>
      cases bs <;> simp [results]
  | cons t tasks ih =>
      cases bs with
      | nil =>
          simp [results, Option.bind_eq_some_iff]
      | cons b bs =>
          simp only [results, bind, Option.bind_eq_some_iff, Option.some.injEq, List.cons.injEq,
            List.map_cons, ← ih]
          constructor
          · rintro ⟨_, hb, _, hbs, rfl, rfl⟩
            exact ⟨hb, hbs⟩
          · rintro ⟨hb, hbs⟩
            exact ⟨b, hb, bs, hbs, rfl, rfl⟩

variable {step : σ → σ} {done : σ → Option β} {result : σ → β} {tasks : List σ}
  {schedule : List Nat}

/-- Tasks that can only end in one way end so under every schedule. -/
theorem results_interleave_eq (hdone : ∀ t ∈ tasks, ∀ n b, done (step^[n] t) = some b → b = result t)
    {bs : List β} (h : results done (interleave step schedule tasks) = some bs) :
    bs = tasks.map result := by
  have hmap := results_eq_some_iff.mp h
  refine List.ext_getElem? fun i => ?_
  have hi := congrArg (·[i]?) hmap
  simp only [List.getElem?_map, getElem?_interleave, Option.map_map] at hi
  rw [List.getElem?_map]
  cases ht : tasks[i]? with
  | none =>
      rw [ht] at hi
      exact (Option.map_eq_none_iff.mp hi.symm)
  | some t =>
      rw [ht] at hi
      obtain ⟨b, hb, hend⟩ := Option.map_eq_some_iff.mp hi.symm
      rw [hb]
      exact congrArg some (hdone t (List.mem_of_getElem? ht) _ b hend.symm)

/-- Tasks that are done after `n` steps are all done under a fair schedule. -/
theorem results_interleave_of_fair {n : Nat}
    (hdone : ∀ t ∈ tasks, ∀ m ≥ n, done (step^[m] t) = some (result t))
    (hfair : Fair n schedule tasks) :
    results done (interleave step schedule tasks) = some (tasks.map result) := by
  refine results_eq_some_iff.mpr (List.ext_getElem? fun i => ?_)
  simp only [List.getElem?_map, getElem?_interleave, Option.map_map]
  cases ht : tasks[i]? with
  | none =>
      rfl
  | some t =>
      have hlt := (List.getElem?_eq_some_iff.mp ht).1
      exact congrArg some (hdone t (List.mem_of_getElem? ht) _ (hfair i hlt))

end Lib
end OrbitOpenEO
