import Mathlib.Data.List.Basic
import Mathlib.Data.List.Induction

/-!
# Letting in what does not clash

Candidates come one after the other to a list and are let in unless they clash with
something that is there already, as rows come to a table with uniqueness constraints.
`clash` need not be an equivalence: two candidates can clash with a third one and not with
each other, so that it depends on the order who is let in.

* Coming again, nobody is let in exactly if everybody clashes with himself
  (`readmitted_eq_nil_iff`).
* `Free` says who is let in by the candidates alone (`mem_admitted_iff`,
  `pairwise_admitted_iff`).
-/

namespace OrbitOpenEO
namespace Lib
namespace Admission

variable {α : Type} (clash : α → α → Bool)

/-- The candidates that are let in to a list. -/
def admitted : List α → List α → List α
  | _, [] => []
  | present, x :: xs =>
      if present.any (clash x) then admitted present xs
      else x :: admitted (present ++ [x]) xs

/-- The candidate `x` clashes neither with what is there nor with those before it that are
let in; the latest of these comes first. -/
def Free (present : List α) : List α → α → Prop
  | [], x => present.any (clash x) = false
  | x' :: before, x => Free present before x ∧ (Free present before x' → clash x x' = false)

variable {clash} {present xs : List α} {x : α}

theorem admitted_append (present xs xs' : List α) :
    admitted clash present (xs ++ xs') =
      admitted clash present xs ++
        admitted clash (present ++ admitted clash present xs) xs' := by
  induction xs generalizing present with
  | nil => rw [List.nil_append, admitted, List.append_nil, List.nil_append]
  | cons x xs ih =>
      by_cases h : present.any (clash x) = true
      · simp only [List.cons_append, admitted, if_pos h]
        exact ih present
      · simp only [List.cons_append, admitted, if_neg h, ih, List.append_assoc, List.nil_append]

theorem admitted_singleton_of_true (h : present.any (clash x) = true) :
    admitted clash present [x] = [] := by
  rw [admitted, if_pos h, admitted]

theorem admitted_singleton_of_false (h : present.any (clash x) = false) :
    admitted clash present [x] = [x] := by
  rw [admitted, if_neg (by simp [h]), admitted]

/-- Nobody is let in exactly if everybody clashes. -/
theorem admitted_eq_nil_iff :
    admitted clash present xs = [] ↔ ∀ x ∈ xs, present.any (clash x) = true := by
  induction xs with
  | nil => simp [admitted]
  | cons x xs ih =>
      by_cases h : present.any (clash x) = true
      · rw [admitted, if_pos h, ih, List.forall_mem_cons]
        exact ⟨fun hxs => ⟨h, hxs⟩, fun hxs => hxs.2⟩
      · rw [admitted, if_neg h, List.forall_mem_cons]
        exact ⟨fun hnil => absurd hnil (List.cons_ne_nil _ _), fun hxs => absurd hxs.1 h⟩

/-- Afterwards, a candidate that clashes with himself clashes. -/
theorem any_admitted (hx : x ∈ xs) (hself : clash x x = true) (present : List α) :
    (present ++ admitted clash present xs).any (clash x) = true := by
  induction xs generalizing present with
  | nil => cases hx
  | cons x' xs ih =>
      by_cases h : present.any (clash x') = true
      · rw [admitted, if_pos h]
        rcases List.mem_cons.mp hx with rfl | hx
        · rw [List.any_append, h, Bool.true_or]
        · exact ih hx present
      · rw [admitted, if_neg h]
        rcases List.mem_cons.mp hx with rfl | hx
        · rw [List.any_append, List.any_cons, hself, Bool.true_or, Bool.or_true]
        · have htail := ih hx (present ++ [x'])
          rwa [List.append_assoc, List.singleton_append] at htail

/-- The second time nobody is let in exactly if everybody clashes with himself. -/
theorem readmitted_eq_nil_iff (hself : ∀ x y, clash x y = true → clash x x = true) :
    admitted clash (present ++ admitted clash present xs) xs = [] ↔
      ∀ x ∈ xs, clash x x = true := by
  rw [admitted_eq_nil_iff]
  refine forall₂_congr fun x hx => ⟨fun h => ?_, fun h => any_admitted hx h present⟩
  obtain ⟨y, -, hy⟩ := List.any_eq_true.mp h
  exact hself x y hy

/-- Those who are free are those who find nothing in their way. -/
theorem free_iff {before : List α} :
    Free clash present before x ↔
      (present ++ admitted clash present before.reverse).any (clash x) = false := by
  induction before generalizing x with
  | nil => rw [Free, List.reverse_nil, admitted, List.append_nil]
  | cons x' before ih =>
      have happend (l : List α) :
          (present ++ (admitted clash present before.reverse ++ l)).any (clash x) = false ↔
            (present ++ admitted clash present before.reverse).any (clash x) = false ∧
              l.any (clash x) = false := by
        rw [← List.append_assoc, List.any_append, Bool.or_eq_false_iff]
      rw [Free, ih, List.reverse_cons, admitted_append, happend]
      refine and_congr_right fun _ => ?_
      cases h : (present ++ admitted clash present before.reverse).any (clash x') with
      | true =>
          rw [admitted_singleton_of_true h, ih, h]
          simp
      | false =>
          rw [admitted_singleton_of_false h, ih, h]
          simp

theorem admitted_concat_of_free (h : Free clash present xs.reverse x) :
    admitted clash present (xs ++ [x]) = admitted clash present xs ++ [x] := by
  rw [free_iff, List.reverse_reverse] at h
  rw [admitted_append, admitted_singleton_of_false h]

theorem admitted_concat_of_not_free (h : ¬ Free clash present xs.reverse x) :
    admitted clash present (xs ++ [x]) = admitted clash present xs := by
  rw [free_iff, List.reverse_reverse, Bool.not_eq_false] at h
  rw [admitted_append, admitted_singleton_of_true h, List.append_nil]

/-- An element in a list with one more at its end. -/
theorem append_singleton_eq_iff {l₁ l₂ : List α} {z : α} :
    xs ++ [z] = l₁ ++ x :: l₂ ↔
      (l₂ = [] ∧ xs = l₁ ∧ z = x) ∨ ∃ l, l₂ = l ++ [z] ∧ xs = l₁ ++ x :: l := by
  constructor
  · intro h
    rcases List.eq_nil_or_concat' l₂ with rfl | ⟨l, w, rfl⟩
    · obtain ⟨hxs, hz⟩ := List.append_inj' h rfl
      exact .inl ⟨rfl, hxs, List.singleton_inj.mp hz⟩
    · rw [← List.cons_append, ← List.append_assoc] at h
      obtain ⟨hxs, hz⟩ := List.append_inj' h rfl
      exact .inr ⟨l, by rw [hz], hxs⟩
  · rintro (⟨rfl, rfl, rfl⟩ | ⟨l, rfl, rfl⟩)
    · rfl
    · rw [List.append_assoc, List.cons_append]

theorem mem_admitted_iff :
    x ∈ admitted clash present xs ↔
      ∃ l₁ l₂, xs = l₁ ++ x :: l₂ ∧ Free clash present l₁.reverse x := by
  induction xs using List.reverseRecOn with
  | nil => simp [admitted]
  | append_singleton xs z ih =>
      have hsplit : (∃ l₁ l₂, xs ++ [z] = l₁ ++ x :: l₂ ∧ Free clash present l₁.reverse x) ↔
          x ∈ admitted clash present xs ∨ x = z ∧ Free clash present xs.reverse z := by
        rw [ih]
        constructor
        · rintro ⟨l₁, l₂, hxs, hfree⟩
          rcases append_singleton_eq_iff.mp hxs with ⟨-, rfl, rfl⟩ | ⟨l, -, rfl⟩
          · exact .inr ⟨rfl, hfree⟩
          · exact .inl ⟨l₁, l, rfl, hfree⟩
        · rintro (⟨l₁, l₂, rfl, hfree⟩ | ⟨rfl, hfree⟩)
          · exact ⟨l₁, l₂ ++ [z], append_singleton_eq_iff.mpr (.inr ⟨l₂, rfl, rfl⟩), hfree⟩
          · exact ⟨xs, [], rfl, hfree⟩
      rw [hsplit]
      by_cases h : Free clash present xs.reverse z
      · rw [admitted_concat_of_free h, List.mem_append, List.mem_singleton, and_iff_left h]
      · rw [admitted_concat_of_not_free h]
        exact ⟨.inl, fun hx => hx.resolve_right fun hz => h hz.2⟩

theorem mem_of_mem_admitted (h : x ∈ admitted clash present xs) : x ∈ xs := by
  obtain ⟨l₁, l₂, rfl, -⟩ := mem_admitted_iff.mp h
  exact List.mem_append_right _ List.mem_cons_self

/-- Two who are let in do not clash. -/
theorem pairwise_admitted (present xs : List α) :
    (admitted clash present xs).Pairwise fun x x' => clash x' x = false := by
  induction xs using List.reverseRecOn with
  | nil => exact .nil
  | append_singleton xs z ih =>
      by_cases h : Free clash present xs.reverse z
      · rw [admitted_concat_of_free h]
        refine List.pairwise_append.mpr ⟨ih, List.pairwise_singleton _ _, fun x hx x' hx' => ?_⟩
        rw [List.mem_singleton.mp hx']
        rw [free_iff, List.reverse_reverse, List.any_eq_false] at h
        exact Bool.eq_false_iff.mpr (h x (List.mem_append_right _ hx))
      · rw [admitted_concat_of_not_free h]
        exact ih

/-- What holds of any two who are let in. -/
theorem pairwise_admitted_iff {R : α → α → Prop} :
    (admitted clash present xs).Pairwise R ↔
      ∀ l₁ x l₂ x' l₃, xs = l₁ ++ x :: l₂ ++ x' :: l₃ → Free clash present l₁.reverse x →
        Free clash present (l₁ ++ x :: l₂).reverse x' → R x x' := by
  induction xs using List.reverseRecOn with
  | nil => simp [admitted]
  | append_singleton xs z ih =>
      have hsplit : (∀ l₁ x l₂ x' l₃, xs ++ [z] = l₁ ++ x :: l₂ ++ x' :: l₃ →
            Free clash present l₁.reverse x → Free clash present (l₁ ++ x :: l₂).reverse x' →
            R x x') ↔
          (admitted clash present xs).Pairwise R ∧
            (Free clash present xs.reverse z → ∀ x ∈ admitted clash present xs, R x z) := by
        rw [ih]
        constructor
        · intro h
          refine ⟨fun l₁ x l₂ x' l₃ hxs => ?_, fun hz x hx => ?_⟩
          · exact h l₁ x l₂ x' (l₃ ++ [z]) (append_singleton_eq_iff.mpr (.inr ⟨l₃, rfl, hxs⟩))
          · obtain ⟨l₁, l₂, rfl, hfree⟩ := mem_admitted_iff.mp hx
            exact h l₁ x l₂ z [] rfl hfree hz
        · rintro ⟨hpairs, hlast⟩ l₁ x l₂ x' l₃ hxs hfree hfree'
          rcases append_singleton_eq_iff.mp hxs with ⟨-, rfl, rfl⟩ | ⟨l, -, rfl⟩
          · exact hlast hfree' x (mem_admitted_iff.mpr ⟨l₁, l₂, rfl, hfree⟩)
          · exact hpairs l₁ x l₂ x' l rfl hfree hfree'
      rw [hsplit]
      by_cases h : Free clash present xs.reverse z
      · rw [admitted_concat_of_free h, List.pairwise_append]
        simp [h]
      · rw [admitted_concat_of_not_free h]
        simp [h]

end Admission
end Lib
end OrbitOpenEO
