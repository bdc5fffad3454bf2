import Mathlib.Data.List.Induction
import Mathlib.Tactic.Common

/-!
# Where an atom comes from

The steps of a run take atoms in and give atoms out.  A run is `Closed` if a step takes
nothing but its own constants and what earlier steps have given.  Whatever occurs in a
closed run then has an origin: a step that gave it without having taken it, or a step
of which it is a constant.
-/

namespace OrbitOpenEO
namespace Lib

/-- What the steps of a run take, what they give, and their constants. -/
structure Flow (X A : Type) where
  taken : X → A → Prop
  given : X → A → Prop
  constant : X → A → Prop

namespace Flow

variable {X A : Type} (F : Flow X A)

/-- What a step can take after the steps `past`. -/
def Available (past : List X) (x : X) (a : A) : Prop :=
  F.constant x a ∨ ∃ y ∈ past, F.given y a

/-- Every step takes what it can. -/
def Closed (run : List X) : Prop :=
  ∀ past x rest, run = past ++ x :: rest → ∀ a, F.taken x a → F.Available past x a

/-- The step gives the atom and has not taken it. -/
def Makes (x : X) (a : A) : Prop := F.given x a ∧ ¬ F.taken x a

/-- Some step makes the atom, or has it as a constant. -/
def Origin (run : List X) (a : A) : Prop :=
  (∃ y ∈ run, F.Makes y a) ∨ ∃ y ∈ run, F.constant y a

variable {F} {run past rest : List X} {x y : X} {a : A}

theorem Origin.mono (h : F.Origin run a) (hsub : run ⊆ rest) : F.Origin rest a :=
  h.imp (fun ⟨y, hy, hmakes⟩ => ⟨y, hsub hy, hmakes⟩)
    (fun ⟨y, hy, hconstant⟩ => ⟨y, hsub hy, hconstant⟩)

theorem Closed.of_append (h : F.Closed (past ++ rest)) : F.Closed past := by
  intro past' x rest' hsplit
  exact h past' x (rest' ++ rest) (by rw [hsplit, List.append_assoc, List.cons_append])

/-- What a step has given has an origin. -/
theorem Closed.origin_of_given (h : F.Closed run) (hy : y ∈ run) (hgiven : F.given y a) :
    F.Origin run a := by
  induction run using List.reverseRecOn generalizing y with
  | nil => cases hy
  | append_singleton past x ih =>
      have hpast {z : X} (hz : z ∈ past) (hgiven : F.given z a) : F.Origin (past ++ [x]) a :=
        (ih h.of_append hz hgiven).mono (List.subset_append_left _ _)
      rcases List.mem_append.mp hy with hy | hy
      · exact hpast hy hgiven
      · obtain rfl := List.mem_singleton.mp hy
        by_cases htaken : F.taken y a
        · rcases h past y [] rfl a htaken with hconstant | ⟨z, hz, hgiven⟩
          · exact Or.inr ⟨y, by simp, hconstant⟩
          · exact hpast hz hgiven
        · exact Or.inl ⟨y, by simp, hgiven, htaken⟩

/-- **What a step takes has an origin**: an earlier step makes it, or it is a constant of
an earlier step or of this one. -/
theorem Closed.origin_of_taken (h : F.Closed (past ++ x :: rest)) (htaken : F.taken x a) :
    (∃ y ∈ past, F.Makes y a) ∨ ∃ y ∈ past ++ [x], F.constant y a := by
  rcases h past x rest rfl a htaken with hconstant | ⟨z, hz, hgiven⟩
  · exact Or.inr ⟨x, by simp, hconstant⟩
  · refine (h.of_append.origin_of_given hz hgiven).imp_right ?_
    rintro ⟨y, hy, hconstant⟩
    exact ⟨y, List.mem_append_left _ hy, hconstant⟩

end Flow

end Lib
end OrbitOpenEO
