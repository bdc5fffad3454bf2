import Mathlib.Tactic.Common
import Mathlib.Data.List.Forall2

/-!
# Actions with a state that survives failure

`EStateM ε σ` runs code that reads and writes a state and may stop with an
error, leaving the state as it was at that moment.  Two ways to speak about such
code:

* `Returns Q x`: whenever `x` returns, its value satisfies `Q`;
* `Outcome Q F (x s)`: the execution of `x` from `s` returns a value and a state
  with `Q`, or fails in a state with `F`.
-/

namespace OrbitOpenEO
namespace Lib

variable {ε σ α β : Type}

/-- The state an action leaves behind, whether it returns or fails. -/
def finalState : EStateM.Result ε σ α → σ
  | .ok _ s => s
  | .error _ s => s

/-- Run an action on every item of a list and keep the values in order. -/
def mapEach (f : α → EStateM ε σ β) : List α → EStateM ε σ (List β)
  | [] => pure []
  | x :: xs => do
      let y ← f x
      let ys ← mapEach f xs
      pure (y :: ys)

/-- Code that may fail without touching the state. -/
def attempt (x : Except ε α) : EStateM ε σ α := fun s =>
  match x with
  | .ok a => .ok a s
  | .error e => .error e s

/-- A sequence returns exactly when both its parts do. -/
theorem act_bind_eq_ok_iff {x : EStateM ε σ α} {f : α → EStateM ε σ β} {s s' : σ} {b : β} :
    (x >>= f) s = .ok b s' ↔ ∃ a t, x s = .ok a t ∧ f a t = .ok b s' := by
  simp only [bind, EStateM.bind]
  cases x s with
  | ok a t =>
      simp
  | error e t =>
      simp

theorem act_pure_eq_ok_iff {a b : α} {s s' : σ} :
    (pure a : EStateM ε σ α) s = .ok b s' ↔ a = b ∧ s = s' := by
  simp [pure, EStateM.pure]

theorem attempt_eq_ok_iff {x : Except ε α} {a : α} {s s' : σ} :
    (attempt x : EStateM ε σ α) s = .ok a s' ↔ x = .ok a ∧ s = s' := by
  cases x <;> simp [attempt]

theorem attempt_bind_eq_ok_iff {x : Except ε α} {f : α → EStateM ε σ β} {s s' : σ} {b : β} :
    ((attempt x : EStateM ε σ α) >>= f) s = .ok b s' ↔ ∃ a, x = .ok a ∧ f a s = .ok b s' := by
  rw [act_bind_eq_ok_iff]
  constructor
  · rintro ⟨a, t, hx, hf⟩
    obtain ⟨hx', rfl⟩ := attempt_eq_ok_iff.mp hx
    exact ⟨a, hx', hf⟩
  · rintro ⟨a, hx, hf⟩
    exact ⟨a, s, attempt_eq_ok_iff.mpr ⟨hx, rfl⟩, hf⟩

/-- Every item of the second list stands beside one of the first. -/
theorem forall₂_exists_left {R : α → β → Prop} {xs : List α} {ys : List β}
    (h : List.Forall₂ R xs ys) {y : β} (hy : y ∈ ys) : ∃ x ∈ xs, R x y := by
  induction h with
  | nil =>
      cases hy
  | cons hR _ ih =>
      rcases List.mem_cons.mp hy with rfl | hy
      · exact ⟨_, List.mem_cons_self, hR⟩
      · obtain ⟨x, hx, hR'⟩ := ih hy
        exact ⟨x, List.mem_cons_of_mem _ hx, hR'⟩

/-- Every item of the first list stands beside one of the second. -/
theorem forall₂_exists_right {R : α → β → Prop} {xs : List α} {ys : List β}
    (h : List.Forall₂ R xs ys) {x : α} (hx : x ∈ xs) : ∃ y ∈ ys, R x y := by
  induction h with
  | nil =>
      cases hx
  | cons hR _ ih =>
      rcases List.mem_cons.mp hx with rfl | hx
      · exact ⟨_, List.mem_cons_self, hR⟩
      · obtain ⟨y, hy, hR'⟩ := ih hx
        exact ⟨y, List.mem_cons_of_mem _ hy, hR'⟩

/-- The item at a position of the second list stands beside the one at that position
of the first. -/
theorem forall₂_getElem? {R : α → β → Prop} {xs : List α} {ys : List β}
    (h : List.Forall₂ R xs ys) {i : Nat} {y : β} (hy : ys[i]? = some y) :
    ∃ x, xs[i]? = some x ∧ R x y := by
  induction h generalizing i with
  | nil =>
      simp at hy
  | @cons a b l₁ l₂ hR _ ih =>
      cases i with
      | zero =>
          rw [List.getElem?_cons_zero] at hy
          cases hy
          exact ⟨a, rfl, hR⟩
      | succ i =>
          rw [List.getElem?_cons_succ] at hy
          exact ih hy

/-- Whenever the action returns, its value satisfies `Q`. -/
def Returns (Q : α → Prop) (x : EStateM ε σ α) : Prop :=
  ∀ s a s', x s = .ok a s' → Q a

theorem Returns.bind {Q : α → Prop} {Q' : β → Prop} {x : EStateM ε σ α}
    {f : α → EStateM ε σ β} (hx : Returns Q x) (hf : ∀ a, Q a → Returns Q' (f a)) :
    Returns Q' (x >>= f) := by
  intro s b s' h
  obtain ⟨a, t, hxa, hfb⟩ := act_bind_eq_ok_iff.mp h
  exact hf a (hx s a t hxa) t b s' hfb

theorem returns_pure {Q : α → Prop} {a : α} (ha : Q a) :
    Returns Q (pure a : EStateM ε σ α) := by
  intro s b s' h
  obtain ⟨rfl, _⟩ := act_pure_eq_ok_iff.mp h
  exact ha

theorem returns_attempt {Q : α → Prop} {x : Except ε α} (h : ∀ a, x = .ok a → Q a) :
    Returns Q (attempt x : EStateM ε σ α) := by
  intro s a s' hok
  exact h a (attempt_eq_ok_iff.mp hok).1

/-- Running code for its effect and then returning a fixed value. -/
theorem returns_then_pure {x : EStateM ε σ α} {b : β} :
    Returns (fun y => y = b) (x >>= fun _ => pure b) :=
  Returns.bind (Q := fun _ => True) (fun _ _ _ _ => trivial) (fun _ _ => returns_pure rfl)

/-- A loop returns one value for each item. -/
theorem mapEach_returns_forall₂ {f : α → EStateM ε σ β} {Q : α → β → Prop} {xs : List α}
    (h : ∀ x ∈ xs, Returns (Q x) (f x)) :
    Returns (fun ys => List.Forall₂ Q xs ys) (mapEach f xs) := by
  induction xs with
  | nil =>
      exact returns_pure .nil
  | cons x xs ih =>
      rw [List.forall_mem_cons] at h
      refine Returns.bind h.1 ?_
      intro y hy
      refine Returns.bind (ih h.2) ?_
      intro ys hys
      exact returns_pure (.cons hy hys)

/-- A loop whose every round can only return one value returns the map. -/
theorem mapEach_returns {f : α → EStateM ε σ β} {g : α → β} {xs : List α}
    (h : ∀ x ∈ xs, Returns (fun y => y = g x) (f x)) :
    Returns (fun ys => ys = xs.map g) (mapEach f xs) := by
  intro s ys s' hys
  have hall := mapEach_returns_forall₂ h s ys s' hys
  clear hys h
  induction hall with
  | nil =>
      rfl
  | cons hy _ ih =>
      rw [hy, ih, List.map_cons]

/-- In the loop over `xs` from `s`, a round for `x` has returned `y`. -/
def RoundReturns (f : α → EStateM ε σ β) (xs : List α) (s : σ) (x : α) (y : β) : Prop :=
  ∃ before after ys t t', xs = before ++ x :: after ∧ mapEach f before s = .ok ys t ∧
    f x t = .ok y t'

/-- A loop returns what its rounds have returned, in order. -/
theorem mapEach_rounds {f : α → EStateM ε σ β} {xs : List α} {s s' : σ} {ys : List β}
    (h : mapEach f xs s = .ok ys s') : List.Forall₂ (RoundReturns f xs s) xs ys := by
  induction xs generalizing s s' ys with
  | nil =>
      obtain ⟨rfl, _⟩ := act_pure_eq_ok_iff.mp h
      exact .nil
  | cons x xs ih =>
      obtain ⟨y, t, hx, h⟩ := act_bind_eq_ok_iff.mp h
      obtain ⟨ys', t', hxs, h⟩ := act_bind_eq_ok_iff.mp h
      obtain ⟨rfl, _⟩ := act_pure_eq_ok_iff.mp h
      refine .cons ⟨[], xs, [], s, t, rfl, rfl, hx⟩ ((ih hxs).imp ?_)
      rintro z u ⟨before, after, zs, v, v', rfl, hbefore, hz⟩
      refine ⟨x :: before, after, y :: zs, v, v', rfl, ?_, hz⟩
      exact act_bind_eq_ok_iff.mpr ⟨y, t, hx, act_bind_eq_ok_iff.mpr ⟨zs, v, hbefore, rfl⟩⟩

theorem returns_throw {Q : α → Prop} {e : ε} :
    Returns Q (throw e : EStateM ε σ α) := by
  intro s a s' h
  cases h

/-- The execution has returned with `Q` or failed with `F`. -/
def Outcome (Q : α → σ → Prop) (F : σ → Prop) : EStateM.Result ε σ α → Prop
  | .ok a s => Q a s
  | .error _ s => F s

/-- The execution has ended in a state with `I`, in one way or the other. -/
abbrev Ends (I : σ → Prop) (r : EStateM.Result ε σ α) : Prop := Outcome (fun _ => I) I r

section Outcome

variable {Q : α → σ → Prop} {F : σ → Prop}

theorem Outcome.imp {Q' : α → σ → Prop} {F' : σ → Prop} {r : EStateM.Result ε σ α}
    (h : Outcome Q F r) (hpost : ∀ a s, Q a s → Q' a s)
    (hfail : ∀ s, F s → F' s) : Outcome Q' F' r := by
  cases r with
  | ok a s =>
      exact hpost a s h
  | error e s =>
      exact hfail s h

theorem Ends.finalState {I : σ → Prop} {r : EStateM.Result ε σ α} (h : Ends I r) :
    I (finalState r) := by
  cases r with
  | ok a s =>
      exact h
  | error e s =>
      exact h

/-- The value and the state are those the execution has returned. -/
theorem Outcome.and_eq {r : EStateM.Result ε σ α} (h : Outcome Q F r) :
    Outcome (fun a s => Q a s ∧ r = .ok a s) F r := by
  cases r with
  | ok a s =>
      exact ⟨h, rfl⟩
  | error e s =>
      exact h

theorem Outcome.bind {Q' : β → σ → Prop} {x : EStateM ε σ α} {f : α → EStateM ε σ β} {s : σ}
    (hx : Outcome Q F (x s)) (hf : ∀ a t, Q a t → Outcome Q' F (f a t)) :
    Outcome Q' F ((x >>= f) s) := by
  simp only [Bind.bind, EStateM.bind]
  cases hxs : x s with
  | ok a t =>
      rw [hxs] at hx
      exact hf a t hx
  | error e t =>
      rw [hxs] at hx
      exact hx

/-- Code behind a check that may fail without touching the state. -/
theorem outcome_attempt_bind {x : Except ε β} {f : β → EStateM ε σ α} {s : σ} (hfail : F s)
    (hf : ∀ b, x = .ok b → Outcome Q F (f b s)) :
    Outcome Q F (((attempt x : EStateM ε σ β) >>= f) s) := by
  cases x with
  | ok b =>
      exact hf b rfl
  | error e =>
      exact hfail

/-- A loop whose every round keeps `I`, moves the state along `R` and returns a
value with `Q`: all values have `Q` at the end if moves along `R` keep it. -/
theorem outcome_mapEach {I : σ → Prop} {R : σ → σ → Prop} {Q : α → β → σ → Prop}
    (hrefl : ∀ s, R s s) (htrans : ∀ s t u, R s t → R t u → R s u)
    {f : α → EStateM ε σ β} {xs : List α}
    (hmove : ∀ x ∈ xs, ∀ y s t, R s t → Q x y s → Q x y t)
    (hround : ∀ x ∈ xs, ∀ s, I s → Outcome (fun y t => I t ∧ R s t ∧ Q x y t) F (f x s)) :
    ∀ s, I s → Outcome (fun ys t => I t ∧ R s t ∧ List.Forall₂ (fun x y => Q x y t) xs ys) F
      (mapEach f xs s) := by
  induction xs with
  | nil =>
      exact fun s hs => ⟨hs, hrefl s, .nil⟩
  | cons x xs ih =>
      rw [List.forall_mem_cons] at hmove hround
      intro s hs
      refine Outcome.bind (hround.1 s hs) ?_
      rintro y t ⟨ht, hst, hy⟩
      refine Outcome.bind (ih hmove.2 hround.2 t ht) ?_
      rintro ys u ⟨hu, htu, hys⟩
      exact ⟨hu, htrans s t u hst htu, .cons (hmove.1 y t u htu hy) hys⟩

/-- A loop keeps what every round keeps. -/
theorem ends_mapEach {I : σ → Prop} {f : α → EStateM ε σ β} {xs : List α}
    (hround : ∀ x ∈ xs, ∀ s, I s → Ends I (f x s)) (s : σ) (hs : I s) :
    Ends I (mapEach f xs s) := by
  induction xs generalizing s with
  | nil =>
      exact hs
  | cons x xs ih =>
      rw [List.forall_mem_cons] at hround
      refine Outcome.bind (hround.1 s hs) ?_
      intro y t ht
      exact Outcome.bind (ih hround.2 t ht) fun _ _ hu => hu

end Outcome

end Lib
end OrbitOpenEO
