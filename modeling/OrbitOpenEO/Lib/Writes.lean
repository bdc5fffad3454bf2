import OrbitOpenEO.Lib.Effect
import Mathlib.Logic.Function.Basic

/-!
# Batches of writes

A `Write` computes the content of one place of a store from what is in some other
places, or fails.  A batch runs its writes one after the other.  When no write reads or
replaces what an earlier one has written, the order is not seen: every write finds what
was there at the start, and the batch fails exactly if one of its writes would fail alone.

`Performs` says that effectful code is such a batch behind a condition.
-/

namespace OrbitOpenEO
namespace Lib

/-- The content for the place `out`, computed from what is in the places `reads`. -/
structure Write (κ ν : Type) where
  out : κ
  reads : List κ
  compute : (κ → Option ν) → Option ν
  compute_congr : ∀ {f g : κ → Option ν}, (∀ k ∈ reads, f k = g k) → compute f = compute g

section Batch

variable {κ ν : Type} [DecidableEq κ]

/-- The contents after a batch.  A write that fails stops it. -/
def runWrites : List (Write κ ν) → (κ → Option ν) → Option (κ → Option ν)
  | [], f => some f
  | a :: as, f => (a.compute f).bind fun v => runWrites as (Function.update f a.out (some v))

/-- No write reads or replaces what an earlier one has written. -/
def WritesApart (as : List (Write κ ν)) : Prop :=
  as.Pairwise fun a b => a.out ∉ b.reads ∧ a.out ≠ b.out

theorem runWrites_append (as bs : List (Write κ ν)) (f : κ → Option ν) :
    runWrites (as ++ bs) f = (runWrites as f).bind (runWrites bs) := by
  induction as generalizing f with
  | nil =>
      rfl
  | cons a as ih =>
      rw [List.cons_append, runWrites, runWrites, Option.bind_assoc]
      exact congrArg (Option.bind _) (funext fun v => ih _)

/-- What no write of the batch puts somewhere stays as it was. -/
theorem runWrites_of_ne {as : List (Write κ ν)} {f g : κ → Option ν}
    (h : runWrites as f = some g) {k : κ} (hk : ∀ a ∈ as, k ≠ a.out) : g k = f k := by
  induction as generalizing f with
  | nil =>
      cases h
      rfl
  | cons a as ih =>
      rw [List.forall_mem_cons] at hk
      obtain ⟨v, _, hrest⟩ := Option.bind_eq_some_iff.mp h
      rw [ih hrest hk.2, Function.update_of_ne hk.1]

/-- A write that does not read a place does not see what is there. -/
theorem Write.compute_update {a : Write κ ν} {k : κ} (hk : k ∉ a.reads) (f : κ → Option ν)
    (v : Option ν) : a.compute (Function.update f k v) = a.compute f := by
  refine a.compute_congr ?_
  intro k' hk'
  have hne : k' ≠ k := by
    rintro rfl
    exact hk hk'
  rw [Function.update_of_ne hne]

/-- **A batch goes through exactly if each of its writes would on its own.** -/
theorem runWrites_isSome_iff {as : List (Write κ ν)} (hapart : WritesApart as)
    (f : κ → Option ν) :
    (runWrites as f).isSome ↔ ∀ a ∈ as, (a.compute f).isSome := by
  induction as generalizing f with
  | nil =>
      simp [runWrites]
  | cons a as ih =>
      obtain ⟨ha, hapart⟩ := List.pairwise_cons.mp hapart
      rw [List.forall_mem_cons, runWrites]
      cases hv : a.compute f with
      | none =>
          simp
      | some v =>
          have hsame : ∀ b ∈ as, b.compute (Function.update f a.out (some v)) = b.compute f :=
            fun b hb => Write.compute_update (ha b hb).1 f (some v)
          rw [Option.bind_some, ih hapart]
          simp only [Option.isSome_some, true_and]
          exact forall₂_congr fun b hb => by rw [hsame b hb]

/-- **What a batch leaves behind**: every write has put there what it computes from the
contents at the start. -/
theorem runWrites_out {as : List (Write κ ν)} (hapart : WritesApart as) {f g : κ → Option ν}
    (h : runWrites as f = some g) {a : Write κ ν} (ha : a ∈ as) : g a.out = a.compute f := by
  induction as generalizing f with
  | nil =>
      cases ha
  | cons b as ih =>
      obtain ⟨hb, hapart⟩ := List.pairwise_cons.mp hapart
      obtain ⟨v, hv, hrest⟩ := Option.bind_eq_some_iff.mp h
      rcases List.mem_cons.mp ha with rfl | ha
      · have hlater : ∀ c ∈ as, a.out ≠ c.out := fun c hc => (hb c hc).2
        rw [runWrites_of_ne hrest hlater, Function.update_self, hv]
      · rw [ih hapart hrest ha]
        exact Write.compute_update (hb a ha).1 f (some v)

end Batch

section Performs

variable {ε σ α β κ ν : Type} [DecidableEq κ] (view : σ → κ → Option ν)

/-- If `c` holds and the batch goes through, the code returns `y` and has done the batch;
otherwise it fails. -/
def Performs (c : Prop) (as : List (Write κ ν)) (y : α) (x : EStateM ε σ α) : Prop :=
  ∀ s, Outcome (fun b t => b = y ∧ c ∧ runWrites as (view s) = some (view t))
    (fun _ => c → runWrites as (view s) = none) (x s)

variable {view}

theorem performs_pure (y : α) :
    Performs view True [] y (pure y : EStateM ε σ α) :=
  fun _ => ⟨rfl, trivial, rfl⟩

/-- A check is a condition without writes. -/
theorem performs_attempt (x : Except ε Unit) :
    Performs view (x = .ok ()) [] () (attempt x : EStateM ε σ Unit) := by
  intro s
  cases x with
  | ok u =>
      exact ⟨rfl, rfl, rfl⟩
  | error e =>
      intro h
      cases h

theorem Performs.bind {c c' : Prop} {as bs : List (Write κ ν)} {y : α} {z : β}
    {x : EStateM ε σ α} {f : α → EStateM ε σ β} (hx : Performs view c as y x)
    (hf : Performs view c' bs z (f y)) :
    Performs view (c ∧ c') (as ++ bs) z (x >>= f) := by
  intro s
  have hfirst : Outcome (fun b t => b = y ∧ c ∧ runWrites as (view s) = some (view t))
      (fun _ => c ∧ c' → runWrites (as ++ bs) (view s) = none) (x s) := by
    refine (hx s).imp (fun _ _ h => h) ?_
    intro _ hnone hc
    rw [runWrites_append, hnone hc.1, Option.bind_none]
  refine Outcome.bind hfirst ?_
  rintro b t ⟨rfl, hc, hrun⟩
  refine (hf t).imp ?_ ?_
  · rintro b' u ⟨rfl, hc', hrun'⟩
    exact ⟨rfl, ⟨hc, hc'⟩, by rw [runWrites_append, hrun, Option.bind_some, hrun']⟩
  · intro _ hnone hcc
    rw [runWrites_append, hrun, Option.bind_some, hnone hcc.2]

theorem Performs.congr {c c' : Prop} {as : List (Write κ ν)} {y : α} {x : EStateM ε σ α}
    (hx : Performs view c as y x) (hc : c ↔ c') : Performs view c' as y x := by
  rw [propext hc] at hx
  exact hx

/-- A loop does the batches of its rounds. -/
theorem performs_mapEach {c : α → Prop} {as : α → List (Write κ ν)} {g : α → β}
    {f : α → EStateM ε σ β} {xs : List α}
    (h : ∀ x ∈ xs, Performs view (c x) (as x) (g x) (f x)) :
    Performs view (∀ x ∈ xs, c x) (xs.flatMap as) (xs.map g) (mapEach f xs) := by
  induction xs with
  | nil =>
      exact (performs_pure []).congr (by simp)
  | cons x xs ih =>
      rw [List.forall_mem_cons] at h
      have hrest : Performs view ((∀ z ∈ xs, c z) ∧ True) (xs.flatMap as ++ [])
          (g x :: xs.map g) (mapEach f xs >>= fun ys => pure (g x :: ys)) :=
        (ih h.2).bind (performs_pure _)
      rw [List.append_nil] at hrest
      exact (h.1.bind hrest).congr (by simp)

end Performs

end Lib
end OrbitOpenEO
