import Mathlib.Data.List.Basic
import Mathlib.Order.MinMax
import Mathlib.Tactic.Common

/-!
# Edit distances

The edit distance of two lists by recursion on their heads, and the same number as the least
cost of an alignment (`editDistance_le_iff`).  Alignments can be reversed, exchanged and put one
after the other, which gives the laws of a metric and the recursion on the last elements that a
table of prefixes is filled by (`editDistance_concat`).
-/

namespace OrbitOpenEO
namespace Lib

variable {α : Type} [DecidableEq α]

/-- The cost of putting one element in the place of another. -/
def replacement (x y : α) : Nat := if x = y then 0 else 1

/-- The recursive edit distance: insertions, deletions and replacements cost one each. -/
def editDistance : List α → List α → Nat
  | [], ys => ys.length
  | x :: xs, [] => (x :: xs).length
  | x :: xs, y :: ys =>
      min (min (editDistance xs (y :: ys) + 1) (editDistance (x :: xs) ys + 1))
        (editDistance xs ys + replacement x y)
termination_by xs ys => xs.length + ys.length

/-- An alignment of two lists with its cost. -/
inductive Aligned : List α → List α → Nat → Prop
  | nil : Aligned [] [] 0
  | delete (x : α) {xs ys : List α} {n : Nat} : Aligned xs ys n → Aligned (x :: xs) ys (n + 1)
  | insert (y : α) {xs ys : List α} {n : Nat} : Aligned xs ys n → Aligned xs (y :: ys) (n + 1)
  | replace (x y : α) {xs ys : List α} {n : Nat} :
      Aligned xs ys n → Aligned (x :: xs) (y :: ys) (n + replacement x y)

@[simp] theorem editDistance_nil_left (ys : List α) : editDistance [] ys = ys.length := by
  rw [editDistance]

@[simp] theorem editDistance_nil_right (xs : List α) : editDistance xs [] = xs.length := by
  cases xs with
  | nil =>
      rw [editDistance]
  | cons x xs =>
      rw [editDistance]

theorem editDistance_cons_cons (x y : α) (xs ys : List α) :
    editDistance (x :: xs) (y :: ys) =
      min (min (editDistance xs (y :: ys) + 1) (editDistance (x :: xs) ys + 1))
        (editDistance xs ys + replacement x y) := by
  rw [editDistance]

@[simp] theorem replacement_self (x : α) : replacement x x = 0 := if_pos rfl

theorem replacement_comm (x y : α) : replacement x y = replacement y x := by
  unfold replacement
  simp only [eq_comm]

theorem replacement_triangle (x y z : α) :
    replacement x z ≤ replacement x y + replacement y z := by
  by_cases hxz : x = z
  · rw [hxz, replacement_self]
    exact Nat.zero_le _
  · have hne : x ≠ y ∨ y ≠ z := by
      by_contra h
      push Not at h
      exact hxz (h.1.trans h.2)
    unfold replacement
    split_ifs
    all_goals simp_all

namespace Aligned

theorem insert_all (ys : List α) : Aligned [] ys ys.length := by
  induction ys with
  | nil =>
      exact .nil
  | cons y ys ih =>
      exact .insert y ih

theorem delete_all (xs : List α) : Aligned xs [] xs.length := by
  induction xs with
  | nil =>
      exact .nil
  | cons x xs ih =>
      exact .delete x ih

/-- Every list is aligned with itself at no cost. -/
theorem refl (xs : List α) : Aligned xs xs 0 := by
  induction xs with
  | nil =>
      exact .nil
  | cons x xs ih =>
      simpa using ih.replace x x

theorem symm {xs ys : List α} {n : Nat} (h : Aligned xs ys n) : Aligned ys xs n := by
  induction h with
  | nil =>
      exact .nil
  | delete x _ ih =>
      exact .insert x ih
  | insert y _ ih =>
      exact .delete y ih
  | replace x y _ ih =>
      rw [replacement_comm]
      exact .replace y x ih

theorem append {xs ys xs' ys' : List α} {m n : Nat} (h : Aligned xs ys m)
    (h' : Aligned xs' ys' n) : Aligned (xs ++ xs') (ys ++ ys') (m + n) := by
  induction h with
  | nil =>
      simpa using h'
  | @delete x xs ys m _ ih =>
      rw [Nat.add_right_comm]
      exact .delete x ih
  | @insert y xs ys m _ ih =>
      rw [Nat.add_right_comm]
      exact .insert y ih
  | @replace x y xs ys m _ ih =>
      rw [Nat.add_right_comm]
      exact .replace x y ih

theorem reverse {xs ys : List α} {n : Nat} (h : Aligned xs ys n) :
    Aligned xs.reverse ys.reverse n := by
  induction h with
  | nil =>
      exact .nil
  | delete x _ ih =>
      simpa using ih.append (.delete x .nil)
  | insert y _ ih =>
      simpa using ih.append (.insert y .nil)
  | replace x y _ ih =>
      simpa using ih.append (.replace x y .nil)

/-- The alignment over a list in between costs no more than the two. -/
theorem trans {xs ys zs : List α} {m n : Nat} (h : Aligned xs ys m) (h' : Aligned ys zs n) :
    ∃ k ≤ m + n, Aligned xs zs k := by
  induction h generalizing zs n with
  | nil =>
      exact ⟨n, by omega, h'⟩
  | delete x _ ih =>
      obtain ⟨k, hk, h⟩ := ih h'
      exact ⟨k + 1, by omega, .delete x h⟩
  | @insert y xs ys m _ ih =>
      -- What was inserted is deleted, replaced, or moved on by insertions.
      generalize hw : y :: ys = ws at h'
      induction h' with
      | nil =>
          cases hw
      | delete _ h' _ =>
          cases hw
          obtain ⟨k, hk, h⟩ := ih h'
          exact ⟨k, by omega, h⟩
      | insert z _ ih' =>
          obtain ⟨k, hk, h⟩ := ih' hw
          exact ⟨k + 1, by omega, .insert z h⟩
      | replace _ z h' _ =>
          cases hw
          obtain ⟨k, hk, h⟩ := ih h'
          exact ⟨k + 1, by omega, .insert z h⟩
  | @replace x y xs ys m _ ih =>
      generalize hw : y :: ys = ws at h'
      induction h' with
      | nil =>
          cases hw
      | delete _ h' _ =>
          cases hw
          obtain ⟨k, hk, h⟩ := ih h'
          exact ⟨k + 1, by omega, .delete x h⟩
      | insert z _ ih' =>
          obtain ⟨k, hk, h⟩ := ih' hw
          exact ⟨k + 1, by omega, .insert z h⟩
      | replace _ z h' _ =>
          cases hw
          obtain ⟨k, hk, h⟩ := ih h'
          have hle := replacement_triangle x y z
          exact ⟨k + replacement x z, by omega, .replace x z h⟩

theorem eq_of_zero {xs ys : List α} {n : Nat} (h : Aligned xs ys n) (hn : n = 0) : xs = ys := by
  induction h with
  | nil =>
      rfl
  | delete x _ _ =>
      omega
  | insert y _ _ =>
      omega
  | replace x y _ ih =>
      have hxy : x = y := by
        by_contra hne
        rw [replacement, if_neg hne] at hn
        omega
      rw [hxy, ih (by omega)]

/-- The recursion finds an alignment of its cost. -/
theorem of_editDistance (xs ys : List α) : Aligned xs ys (editDistance xs ys) := by
  induction xs, ys using editDistance.induct with
  | case1 ys =>
      rw [editDistance_nil_left]
      exact insert_all ys
  | case2 x xs =>
      rw [editDistance_nil_right]
      exact delete_all (x :: xs)
  | case3 x xs y ys ihDelete ihInsert ihReplace =>
      rw [editDistance_cons_cons]
      rcases min_choice (min (editDistance xs (y :: ys) + 1) (editDistance (x :: xs) ys + 1))
        (editDistance xs ys + replacement x y) with h | h
      · rw [h]
        rcases min_choice (editDistance xs (y :: ys) + 1) (editDistance (x :: xs) ys + 1)
          with h | h
        · rw [h]
          exact .delete x ihDelete
        · rw [h]
          exact .insert y ihInsert
      · rw [h]
        exact .replace x y ihReplace

/-- No alignment costs less than the recursion says. -/
theorem editDistance_le {xs ys : List α} {n : Nat} (h : Aligned xs ys n) :
    editDistance xs ys ≤ n := by
  induction h with
  | nil =>
      simp
  | @delete x xs ys n _ ih =>
      cases ys with
      | nil =>
          rw [editDistance_nil_right] at ih ⊢
          exact Nat.succ_le_succ ih
      | cons y ys =>
          rw [editDistance_cons_cons]
          omega
  | @insert y xs ys n _ ih =>
      cases xs with
      | nil =>
          rw [editDistance_nil_left] at ih ⊢
          exact Nat.succ_le_succ ih
      | cons x xs =>
          rw [editDistance_cons_cons]
          omega
  | replace x y _ ih =>
      rw [editDistance_cons_cons]
      omega

end Aligned

theorem editDistance_comm (xs ys : List α) : editDistance xs ys = editDistance ys xs :=
  le_antisymm (Aligned.of_editDistance ys xs).symm.editDistance_le
    (Aligned.of_editDistance xs ys).symm.editDistance_le

theorem editDistance_eq_zero_iff {xs ys : List α} : editDistance xs ys = 0 ↔ xs = ys := by
  constructor
  · exact (Aligned.of_editDistance xs ys).eq_of_zero
  · rintro rfl
    exact Nat.le_zero.mp (Aligned.refl xs).editDistance_le

theorem editDistance_triangle (xs ys zs : List α) :
    editDistance xs zs ≤ editDistance xs ys + editDistance ys zs := by
  obtain ⟨k, hk, h⟩ := (Aligned.of_editDistance xs ys).trans (.of_editDistance ys zs)
  exact h.editDistance_le.trans hk

theorem editDistance_reverse (xs ys : List α) :
    editDistance xs.reverse ys.reverse = editDistance xs ys := by
  refine le_antisymm (Aligned.of_editDistance xs ys).reverse.editDistance_le ?_
  simpa using (Aligned.of_editDistance xs.reverse ys.reverse).reverse.editDistance_le

/-- The recursion on the last elements. -/
theorem editDistance_concat (xs ys : List α) (x y : α) :
    editDistance (xs ++ [x]) (ys ++ [y]) =
      min (min (editDistance xs (ys ++ [y]) + 1) (editDistance (xs ++ [x]) ys + 1))
        (editDistance xs ys + replacement x y) := by
  rw [← editDistance_reverse (xs ++ [x]), ← editDistance_reverse xs,
    ← editDistance_reverse (xs ++ [x]) ys, ← editDistance_reverse xs ys, List.reverse_concat,
    List.reverse_concat, editDistance_cons_cons]

end Lib
end OrbitOpenEO
