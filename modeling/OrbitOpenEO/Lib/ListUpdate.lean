import Mathlib.Algebra.BigOperators.Group.List.Basic
import Mathlib.Algebra.GroupWithZero.Nat
import Mathlib.Tactic.Common

/-!
# Replacing one element of a list

What counts, sums and tests over a list do when one element is replaced.
-/

namespace OrbitOpenEO
namespace Lib

variable {α : Type} {p : α → Bool} {l : List α} {i : Nat} {x y : α}

theorem countP_set (h : l[i]? = some x) :
    (l.set i y).countP p + (if p x then 1 else 0) = l.countP p + (if p y then 1 else 0) := by
  induction l generalizing i with
  | nil =>
      simp at h
  | cons z l ih =>
      cases i with
      | zero =>
          simp only [List.getElem?_cons_zero, Option.some.injEq] at h
          subst h
          simp only [List.set_cons_zero, List.countP_cons]
          omega
      | succ i =>
          have := ih (by simpa using h)
          simp only [List.set_cons_succ, List.countP_cons]
          omega

theorem sum_map_set (w : α → Nat) (h : l[i]? = some x) :
    ((l.set i y).map w).sum + w x = (l.map w).sum + w y := by
  induction l generalizing i with
  | nil =>
      simp at h
  | cons z l ih =>
      cases i with
      | zero =>
          simp only [List.getElem?_cons_zero, Option.some.injEq] at h
          subst h
          simp only [List.set_cons_zero, List.map_cons, List.sum_cons]
          omega
      | succ i =>
          have := ih (by simpa using h)
          simp only [List.set_cons_succ, List.map_cons, List.sum_cons]
          omega

theorem countP_modify {f : α → α} (hf : ∀ a, p (f a) = p a) :
    (l.modify i f).countP p = l.countP p := by
  induction l generalizing i with
  | nil =>
      simp
  | cons z l ih =>
      cases i with
      | zero =>
          simp [List.countP_cons, hf]
      | succ i =>
          simp [List.countP_cons, ih]

/-- A test of a list looks at one element and at the others. -/
theorem any_eq_eraseIdx (h : l[i]? = some x) : l.any p = (p x || (l.eraseIdx i).any p) := by
  induction l generalizing i with
  | nil =>
      simp at h
  | cons z l ih =>
      cases i with
      | zero =>
          simp only [List.getElem?_cons_zero, Option.some.injEq] at h
          subst h
          rfl
      | succ i =>
          have := ih (by simpa using h)
          simp only [List.any_cons, List.eraseIdx_cons_succ, this]
          exact Bool.or_left_comm _ _ _

theorem any_set (h : l[i]? = some x) : (l.set i y).any p = (p y || (l.eraseIdx i).any p) := by
  have hi : i < l.length := (List.getElem?_eq_some_iff.mp h).1
  rw [any_eq_eraseIdx (List.getElem?_set_self hi), List.eraseIdx_set_eq]

end Lib
end OrbitOpenEO
