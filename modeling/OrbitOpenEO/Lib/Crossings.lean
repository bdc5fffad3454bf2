import Mathlib.Algebra.Ring.Parity
import Mathlib.Data.List.Rotate
import Mathlib.Order.Lattice
import Mathlib.Tactic.Common

/-!
# Crossings of a closed line

A closed line changes sides an even number of times (`even_sideChanges`).  Where its crossings
with a straight line are sorted and taken in pairs, the pairs are the stretches with an odd
number of crossings before them (`exists_span_iff`).
-/

namespace OrbitOpenEO
namespace Lib

/-- The sides of a closed line: every point with the next one, the last with the first. -/
def closedPairs {α : Type} (l : List α) : List (α × α) := l.zip (l.rotate 1)

section Sides

variable {α : Type} (p : α → Bool)

/-- The number of changes of a path tells whether its ends are on different sides. -/
theorem odd_pathChanges (a z : α) (l : List α) :
    Odd (((a :: l).zip (l ++ [z])).countP fun e => p e.1 != p e.2) ↔ p a ≠ p z := by
  induction l generalizing a with
  | nil =>
      cases ha : p a <;> cases hz : p z <;> simp [ha, hz]
  | cons b l ih =>
      rw [List.cons_append, List.zip_cons_cons, List.countP_cons]
      have h := ih b
      by_cases hab : p a = p b
      · rw [if_neg (by simp [hab]), Nat.add_zero, h, hab]
      · rw [if_pos (by simpa using hab), Nat.odd_add_one, h]
        cases ha : p a <;> cases hb : p b <;> cases hz : p z <;> simp_all

/-- A closed line comes back to the side that it has left. -/
theorem even_sideChanges (l : List α) :
    Even ((closedPairs l).countP fun e => p e.1 != p e.2) := by
  cases l with
  | nil =>
      exact Even.zero
  | cons a l =>
      rw [← Nat.not_odd_iff_even, closedPairs, List.rotate_cons_succ, List.rotate_zero,
        odd_pathChanges]
      exact not_not.mpr rfl

end Sides

section Spans

variable {α : Type}

/-- The elements in pairs; an odd one at the end is left out. -/
def spans : List α → List (α × α)
  | lo :: hi :: rest => (lo, hi) :: spans rest
  | _ => []

theorem mem_of_mem_spans {xs : List α} {s : α × α} (h : s ∈ spans xs) : s.1 ∈ xs ∧ s.2 ∈ xs := by
  induction xs using spans.induct with
  | case1 lo hi rest ih =>
      rw [spans] at h
      rcases List.mem_cons.mp h with rfl | h
      · simp
      · exact ⟨List.mem_cons_of_mem _ (List.mem_cons_of_mem _ (ih h).1),
          List.mem_cons_of_mem _ (List.mem_cons_of_mem _ (ih h).2)⟩
  | case2 xs hxs =>
      rw [spans.eq_2 xs hxs] at h
      exact absurd h List.not_mem_nil

variable [LinearOrder α]

/-- A number lies between the two of a pair, and the lower one is not above a bound, if an
odd number of elements is not greater, another one is, and none lies between the bound and
the number. -/
theorem exists_span_iff {xs : List α} (hsorted : xs.Pairwise (· ≤ ·)) (bound t : α) :
    (∃ s ∈ spans xs, (s.1 ≤ t ∧ t < s.2) ∧ s.1 ≤ bound) ↔
      Odd (xs.countP (· ≤ t)) ∧ (∃ x ∈ xs, t < x) ∧ ∀ x ∈ xs, x ≤ t → x ≤ bound := by
  induction xs using spans.induct with
  | case2 xs hxs =>
      rw [spans.eq_2 xs hxs]
      refine iff_of_false (by simp) ?_
      rintro ⟨hodd, ⟨x, hx, hlt⟩, -⟩
      -- A single element is counted or greater, not both.
      rcases xs with _ | ⟨y, _ | ⟨hi, rest⟩⟩
      case nil =>
        cases hx
      case cons.nil =>
        cases List.mem_singleton.mp hx
        simp [not_le_of_gt hlt] at hodd
      case cons.cons =>
        exact hxs y hi rest rfl
  | case1 lo hi rest ih =>
      obtain ⟨hlo, hsorted⟩ := List.pairwise_cons.mp hsorted
      obtain ⟨hhi, hsorted⟩ := List.pairwise_cons.mp hsorted
      have hle : lo ≤ hi := hlo hi List.mem_cons_self
      have ih := ih hsorted
      rw [spans, List.countP_cons, List.countP_cons]
      rcases lt_or_ge t lo with hbelow | hbelow
      case inl =>
        have hall : ∀ x ∈ rest, ¬ x ≤ t := fun x hx =>
          not_le_of_gt (hbelow.trans_le (hle.trans (hhi x hx)))
        have hzero : rest.countP (· ≤ t) = 0 := by
          rw [List.countP_eq_zero]
          exact fun x hx => by simpa using hall x hx
        refine iff_of_false ?_ ?_
        · rintro ⟨s, hs, ⟨hst, -⟩, -⟩
          rcases List.mem_cons.mp hs with rfl | hs
          · exact absurd hst (not_le_of_gt hbelow)
          · exact hall s.1 (mem_of_mem_spans hs).1 hst
        · simp [hzero, hbelow.not_ge, (hbelow.trans_le hle).not_ge]
      case inr =>
        rcases lt_or_ge t hi with hwithin | hwithin
        case inl =>
          have hall : ∀ x ∈ rest, ¬ x ≤ t := fun x hx =>
            not_le_of_gt (hwithin.trans_le (hhi x hx))
          have hzero : rest.countP (· ≤ t) = 0 := by
            rw [List.countP_eq_zero]
            exact fun x hx => by simpa using hall x hx
          constructor
          · rintro ⟨s, hs, ⟨hst, -⟩, hbound⟩
            rcases List.mem_cons.mp hs with rfl | hs
            · refine ⟨by simp [hzero, hbelow, hwithin.not_ge], ⟨hi, by simp, hwithin⟩, ?_⟩
              intro x hx hxt
              rcases List.mem_cons.mp hx with rfl | hx
              · exact hbound
              · rcases List.mem_cons.mp hx with rfl | hx
                · exact absurd hxt (not_le_of_gt hwithin)
                · exact absurd hxt (hall x hx)
            · exact absurd hst (hall s.1 (mem_of_mem_spans hs).1)
          · rintro ⟨-, -, hbound⟩
            exact ⟨(lo, hi), List.mem_cons_self, ⟨hbelow, hwithin⟩,
              hbound lo List.mem_cons_self hbelow⟩
        case inr =>
          have hspans : (∃ s ∈ (lo, hi) :: spans rest, (s.1 ≤ t ∧ t < s.2) ∧ s.1 ≤ bound) ↔
              ∃ s ∈ spans rest, (s.1 ≤ t ∧ t < s.2) ∧ s.1 ≤ bound := by
            rw [List.exists_mem_cons_iff]
            exact or_iff_right fun h => absurd h.1.2 (not_lt_of_ge hwithin)
          have hodd : Odd (rest.countP (· ≤ t) + (if decide (hi ≤ t) then 1 else 0) +
              if decide (lo ≤ t) then 1 else 0) ↔ Odd (rest.countP (· ≤ t)) := by
            rw [if_pos (decide_eq_true hwithin), if_pos (decide_eq_true hbelow), Nat.odd_iff,
              Nat.odd_iff]
            omega
          have hgreater : (∃ x ∈ lo :: hi :: rest, t < x) ↔ ∃ x ∈ rest, t < x := by
            rw [List.exists_mem_cons_iff, List.exists_mem_cons_iff,
              or_iff_right (not_lt_of_ge hbelow), or_iff_right (not_lt_of_ge hwithin)]
          rw [hspans, ih, hodd, hgreater]
          refine and_congr_right fun hcount => and_congr_right fun _ => ⟨fun h => ?_, fun h => ?_⟩
          · -- The element of the rest that is counted is above both.
            obtain ⟨k, hk⟩ := hcount
            obtain ⟨x, hx, hxt⟩ := List.countP_pos_iff.mp (show 0 < rest.countP (· ≤ t) by omega)
            have hbound := h x hx (of_decide_eq_true hxt)
            have hhib := (hhi x hx).trans hbound
            exact List.forall_mem_cons.mpr ⟨fun _ => hle.trans hhib,
              List.forall_mem_cons.mpr ⟨fun _ => hhib, h⟩⟩
          · exact fun x hx => h x (List.mem_cons_of_mem _ (List.mem_cons_of_mem _ hx))

/-- An upper element of a pair reaches a bound if more elements do than the one left out. -/
theorem exists_span_ge_iff {xs : List α} (hsorted : xs.Pairwise (· ≤ ·)) (bound : α) :
    (∃ s ∈ spans xs, bound ≤ s.2) ↔ xs.length % 2 < xs.countP (bound ≤ ·) := by
  induction xs using spans.induct with
  | case2 xs hxs =>
      rw [spans.eq_2 xs hxs]
      refine iff_of_false (by simp) ?_
      rcases xs with _ | ⟨y, _ | ⟨hi, rest⟩⟩
      case nil =>
        simp
      case cons.nil =>
        have := List.countP_le_length (p := fun x => decide (bound ≤ x)) (l := [y])
        simp only [List.length_singleton] at this ⊢
        omega
      case cons.cons =>
        exact absurd rfl (hxs y hi rest)
  | case1 lo hi rest ih =>
      obtain ⟨hlo, hsorted⟩ := List.pairwise_cons.mp hsorted
      obtain ⟨hhi, hsorted⟩ := List.pairwise_cons.mp hsorted
      have ih := ih hsorted
      rw [spans, List.exists_mem_cons_iff, ih, List.countP_cons, List.countP_cons,
        List.length_cons, List.length_cons]
      rcases le_or_gt bound hi with hreach | hreach
      case inl =>
        have hall : rest.countP (bound ≤ ·) = rest.length := by
          rw [List.countP_eq_length]
          exact fun x hx => decide_eq_true (hreach.trans (hhi x hx))
        rw [hall, if_pos (decide_eq_true hreach)]
        refine iff_of_true (.inl hreach) ?_
        omega
      case inr =>
        have hlow : ¬ bound ≤ lo := not_le_of_gt ((hlo hi List.mem_cons_self).trans_lt hreach)
        rw [if_neg (by simpa using hreach), if_neg (by simpa using hlow),
          or_iff_right (not_le_of_gt hreach)]
        omega

end Spans

end Lib
end OrbitOpenEO
