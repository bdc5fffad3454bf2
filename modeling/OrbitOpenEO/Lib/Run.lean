import Mathlib.Tactic.Common

/-!
# Runs of a transition system

A system is a partial step function on states.  `Reach step G s t` says that
`t` is reached from `s` by steps that each meet the condition `G` on the state
before the step and the action.  An invariant is proved by what one step
preserves (`Reach.invariant`).
-/

namespace OrbitOpenEO
namespace Lib

variable {σ α : Type} (step : σ → α → Option σ)

/-- The states reached by steps that all meet `G`. -/
inductive Reach (G : σ → α → Prop) (s : σ) : σ → Prop
  | refl : Reach G s s
  | tail {t u : σ} {a : α} : Reach G s t → G t a → step t a = some u → Reach G s u

/-- Every step is allowed. -/
def AnyStep : σ → α → Prop := fun _ _ => True

/-- Take a list of steps. -/
def runAll : σ → List α → Option σ
  | s, [] => some s
  | s, a :: as =>
      match step s a with
      | none => none
      | some t => runAll t as

variable {step} {G : σ → α → Prop} {s t : σ}

namespace Reach

/-- What holds at the start and is preserved by every step that meets the
condition holds in every state reached. -/
theorem invariant {I : σ → Prop} (h : Reach step G s t) (hs : I s)
    (hstep : ∀ t a u, I t → G t a → step t a = some u → I u) : I t := by
  induction h with
  | refl =>
      exact hs
  | tail _ hG hu ih =>
      exact hstep _ _ _ ih hG hu

theorem mono {G' : σ → α → Prop} (h : Reach step G s t) (hG : ∀ s a, G s a → G' s a) :
    Reach step G' s t := by
  induction h with
  | refl =>
      exact .refl
  | tail _ ha hu ih =>
      exact .tail ih (hG _ _ ha) hu

/-- A step before a run. -/
theorem head {a : α} {u : σ} (hG : G s a) (ha : step s a = some t) (h : Reach step G t u) :
    Reach step G s u := by
  induction h with
  | refl =>
      exact .tail .refl hG ha
  | tail _ hG' hu ih =>
      exact .tail ih hG' hu

/-- A machine whose steps are matched by those of another one is matched in its runs. -/
theorem simulate {τ : Type} {step' : τ → α → Option τ} {G' : τ → α → Prop} {R : σ → τ → Prop}
    (hstep : ∀ u v a w, R u v → G u a → step u a = some w →
      ∃ w', G' v a ∧ step' v a = some w' ∧ R w w')
    (h : Reach step G s t) {s' : τ} (hs : R s s') : ∃ t', Reach step' G' s' t' ∧ R t t' := by
  induction h with
  | refl =>
      exact ⟨s', .refl, hs⟩
  | tail _ hG hu ih =>
      obtain ⟨v, hv, hR⟩ := ih
      obtain ⟨w, hG', hw, hR'⟩ := hstep _ v _ _ hR hG hu
      exact ⟨w, .tail hv hG' hw, hR'⟩

theorem trans {u : σ} (h : Reach step G s t) (h' : Reach step G t u) : Reach step G s u := by
  induction h' with
  | refl =>
      exact h
  | tail _ hG hu ih =>
      exact .tail ih hG hu

end Reach

/-- Every step of the list meets the condition where it is taken. -/
def Allowed (step : σ → α → Option σ) (G : σ → α → Prop) : σ → List α → Prop
  | _, [] => True
  | s, a :: as =>
      G s a ∧
        match step s a with
        | none => True
        | some t => Allowed step G t as

instance decidableAllowed (step : σ → α → Option σ) (G : σ → α → Prop)
    [∀ s a, Decidable (G s a)] : ∀ (s : σ) (as : List α), Decidable (Allowed step G s as)
  | _, [] => .isTrue trivial
  | s, a :: as =>
      have : Decidable
          (match step s a with
          | none => True
          | some t => Allowed step G t as) :=
        match step s a with
        | none => .isTrue trivial
        | some t => decidableAllowed step G t as
      inferInstanceAs (Decidable (_ ∧ _))

theorem runAll_append (as bs : List α) (s : σ) :
    runAll step s (as ++ bs) = (runAll step s as).bind fun t => runAll step t bs := by
  induction as generalizing s with
  | nil =>
      rfl
  | cons a as ih =>
      rw [List.cons_append, runAll, runAll]
      cases step s a with
      | none =>
          rfl
      | some t =>
          exact ih t

theorem runAll_concat {as : List α} {a : α} {s u : σ} (h : runAll step s (as ++ [a]) = some u) :
    ∃ t, runAll step s as = some t ∧ step t a = some u := by
  rw [runAll_append, Option.bind_eq_some_iff] at h
  obtain ⟨t, ht, hu⟩ := h
  refine ⟨t, ht, ?_⟩
  unfold runAll at hu
  split at hu
  · cases hu
  · next u' hu' =>
      cases hu
      exact hu'

theorem runAll_singleton {a : α} {s t : σ} (h : step s a = some t) : runAll step s [a] = some t := by
  rw [runAll, h]
  rfl

/-- A list of steps is allowed as long as each of them is, where it is taken. -/
theorem allowed_iff {as : List α} {s : σ} :
    Allowed step G s as ↔
      ∀ before a after t, as = before ++ a :: after → runAll step s before = some t → G t a := by
  induction as generalizing s with
  | nil =>
      simp [Allowed]
  | cons a as ih =>
      constructor
      · rintro ⟨ha, has⟩ before b after t heq ht
        cases before with
        | nil =>
            cases heq
            cases ht
            exact ha
        | cons c before =>
            rw [List.cons_append, List.cons.injEq] at heq
            obtain ⟨rfl, rfl⟩ := heq
            unfold runAll at ht
            split at ht
            · cases ht
            · next u hu =>
                rw [hu] at has
                exact ih.mp has before b after t rfl ht
      · intro h
        refine ⟨h [] a as s rfl rfl, ?_⟩
        split
        · trivial
        · next u hu =>
            refine ih.mpr fun before b after t heq ht => ?_
            subst heq
            exact h (a :: before) b after t rfl (by rw [runAll, hu]; exact ht)

/-- A list of allowed steps gives a run. -/
theorem reach_of_runAll {r : σ} :
    ∀ {as : List α} {s t : σ}, Reach step G r s → Allowed step G s as →
      runAll step s as = some t → Reach step G r t
  | [], _, _, hr, _, h => by
      cases h
      exact hr
  | a :: as, s, _, hr, hG, h => by
      obtain ⟨ha, has⟩ := hG
      unfold runAll at h
      split at h
      · cases h
      · rename_i u hu
        rw [hu] at has
        exact reach_of_runAll (.tail hr ha hu) has h

/-- The state after a list of allowed steps, with a test of that state. -/
theorem exists_reach_of_runAll (step : σ → α → Option σ) (s : σ) (as : List α) (P : σ → Bool)
    (hG : Allowed step G s as) (h : (runAll step s as).any P = true) :
    ∃ t, Reach step G s t ∧ P t = true := by
  cases ht : runAll step s as with
  | none =>
      simp [ht] at h
  | some t =>
      exact ⟨t, reach_of_runAll .refl hG ht, by simpa [ht] using h⟩

/-- Whichever of the steps in `A` are taken, as long as there are any, a state with `P` comes. -/
inductive Inevitable (step : σ → α → Option σ) (A : α → Prop) (P : σ → Prop) : σ → Prop
  | now {s : σ} : P s → Inevitable step A P s
  | later {s : σ} : (∃ a t, A a ∧ step s a = some t) →
      (∀ a t, A a → step s a = some t → Inevitable step A P t) → Inevitable step A P s

/-- If every step goes down and there is one to take until `P` holds, then `P` is inevitable. -/
theorem inevitable_of_measure {A : α → Prop} {P I : σ → Prop} (measure : σ → Nat)
    (hstep : ∀ s a t, I s → A a → step s a = some t → I t ∧ measure t < measure s)
    (hnext : ∀ s, I s → P s ∨ ∃ a t, A a ∧ step s a = some t) {s : σ} (hs : I s) :
    Inevitable step A P s := by
  induction hn : measure s using Nat.strongRecOn generalizing s with
  | ind n ih =>
      rcases hnext s hs with hP | hgo
      · exact .now hP
      · refine .later hgo fun a t ha ht => ?_
        obtain ⟨hI, hlt⟩ := hstep s a t hs ha ht
        exact ih (measure t) (hn ▸ hlt) hI rfl

/-- What is inevitable is reached by a run. -/
theorem Inevitable.exists_reach {A : α → Prop} {P : σ → Prop} (h : Inevitable step A P s) :
    ∃ t, Reach step (fun _ a => A a) s t ∧ P t := by
  induction h with
  | now hP =>
      exact ⟨_, .refl, hP⟩
  | later hgo _ ih =>
      obtain ⟨a, t, ha, ht⟩ := hgo
      obtain ⟨u, hu, hP⟩ := ih a t ha ht
      exact ⟨u, .head (G := fun _ a => A a) ha ht hu, hP⟩

theorem Inevitable.mono {A : α → Prop} {P Q : σ → Prop} (h : Inevitable step A P s)
    (hPQ : ∀ s, P s → Q s) : Inevitable step A Q s := by
  induction h with
  | now hP =>
      exact .now (hPQ _ hP)
  | later hgo _ ih =>
      exact .later hgo ih

/-- The replies to a list of operations. -/
def replies {ρ : Type} (step : σ → α → ρ × σ) : σ → List α → List ρ
  | _, [] => []
  | s, a :: as => (step s a).1 :: replies step (step s a).2 as

/-- Every operation of the list meets the condition on the state it finds. -/
def AllMeet {ρ : Type} (step : σ → α → ρ × σ) (G : σ → α → Prop) : σ → List α → Prop
  | _, [] => True
  | s, a :: as => G s a ∧ AllMeet step G (step s a).2 as

/-- A machine whose states stand for those of another one, as long as each
operation meets a condition.  If the condition is exactly that the two machines
give the same reply, then lists of operations get the same replies if and only if
they meet it throughout.  The second machine may have a choice `ι` to make. -/
theorem replies_eq_iff {ι τ ρ : Type} {step : σ → α → ρ × σ} {step' : ι → τ → α → ρ × τ}
    {G : σ → α → Prop} {I : σ → Prop} (image : σ → τ)
    (hreply : ∀ s a, I s → ((∀ i, (step' i (image s) a).1 = (step s a).1) ↔ G s a))
    (hinv : ∀ s a, I s → G s a → I (step s a).2)
    (hnext : ∀ i s a, I s → G s a → (step' i (image s) a).2 = image (step s a).2) :
    ∀ (as : List α) (s : σ), I s →
      ((∀ i, replies (step' i) (image s) as = replies step s as) ↔ AllMeet step G s as)
  | [], s, _ => by simp [replies, AllMeet]
  | a :: as, s, hs => by
      simp only [replies, AllMeet, List.cons.injEq, forall_and, hreply s a hs]
      refine and_congr_right fun hG => ?_
      rw [← replies_eq_iff image hreply hinv hnext as _ (hinv s a hs hG)]
      exact forall_congr' fun i => by rw [hnext i s a hs hG]

/-- Two machines whose related states give related replies, and stay related, give
related replies to the same operations. -/
theorem replies_related {τ ρ ρ' : Type} {step : σ → α → ρ × σ} {step' : τ → α → ρ' × τ}
    {R : σ → τ → Prop} {Same : ρ → ρ' → Prop} {Ok : α → Prop}
    (hstep : ∀ s t a, R s t → Ok a →
      Same (step s a).1 (step' t a).1 ∧ R (step s a).2 (step' t a).2) :
    ∀ (as : List α) (s : σ) (t : τ), R s t → (∀ a ∈ as, Ok a) →
      List.Forall₂ Same (replies step s as) (replies step' t as)
  | [], _, _, _, _ => .nil
  | a :: as, s, t, hR, hok => by
      obtain ⟨ha, has⟩ := List.forall_mem_cons.mp hok
      obtain ⟨hsame, hnext⟩ := hstep s t a hR ha
      exact .cons hsame (replies_related hstep as _ _ hnext has)

theorem allowed_anyStep : ∀ (as : List α) (s : σ), Allowed step AnyStep s as
  | [], _ => trivial
  | a :: as, s => by
      refine ⟨trivial, ?_⟩
      split
      · trivial
      · exact allowed_anyStep as _

end Lib
end OrbitOpenEO
