import Mathlib.Data.List.Sort
import Mathlib.Tactic.Common

/-!
# Stable sorting by a key

`mergeSort` keeps elements with equal keys in their order.  For a list whose elements carry
their positions, the result is therefore the one list with the same elements that is ordered by
key and then by position (`pairwise_mergeSort_byKey`).
-/

namespace OrbitOpenEO
namespace Lib

variable {α κ : Type} [LinearOrder κ] (key : α → κ)

/-- The comparison by key. -/
def byKey (a b : α) : Bool := decide (key a ≤ key b)

theorem byKey_trans (a b c : α) (hab : byKey key a b = true) (hbc : byKey key b c = true) :
    byKey key a c = true :=
  decide_eq_true ((of_decide_eq_true hab).trans (of_decide_eq_true hbc))

theorem byKey_total (a b : α) : (byKey key a b || byKey key b a) = true := by
  rcases le_total (key a) (key b) with h | h
  · rw [byKey, decide_eq_true h, Bool.true_or]
  · rw [byKey, byKey, decide_eq_true h, Bool.or_true]

/-- Sorting only compares elements of the list. -/
theorem mergeSort_congr {r s : α → α → Bool} {l : List α}
    (h : ∀ a ∈ l, ∀ b ∈ l, r a b = s a b) : l.mergeSort r = l.mergeSort s := by
  have hmap := List.map_mergeSort (r := r) (s := s) (f := id) (l := l) h
  rwa [List.map_id, List.map_id] at hmap

/-- Where the comparison tells the elements apart, the order before sorting does not matter. -/
theorem mergeSort_eq_of_perm {r : α → α → Bool} (htrans : ∀ a b c, r a b → r b c → r a c)
    (htotal : ∀ a b, (r a b || r b a) = true) {l l' : List α} (h : l.Perm l')
    (hties : ∀ a ∈ l, ∀ b ∈ l, r a b = true → r b a = true → a = b) :
    l.mergeSort r = l'.mergeSort r := by
  have hsorted := List.pairwise_mergeSort htrans htotal l
  have hsorted' := List.pairwise_mergeSort htrans htotal l'
  have hperm : (l.mergeSort r).Perm (l'.mergeSort r) :=
    (List.mergeSort_perm l r).trans (h.trans (List.mergeSort_perm l' r).symm)
  refine List.Perm.eq_of_pairwise ?_ hsorted hsorted' hperm
  exact fun a b ha hb => hties a (List.mem_mergeSort.mp ha) b
    (h.mem_iff.mpr (List.mem_mergeSort.mp hb))

/-- Two elements of a list without repetition stand in one order only. -/
theorem not_sublist_swap {a b : α} {l : List α} (hl : l.Nodup) (hab : [a, b].Sublist l) :
    ¬ [b, a].Sublist l := by
  intro hba
  induction l with
  | nil =>
      cases hab
  | cons c l ih =>
      obtain ⟨hc, hl⟩ := List.nodup_cons.mp hl
      rw [List.cons_sublist_cons'] at hab hba
      rcases hab with hab | ⟨rfl, hb⟩
      · rcases hba with hba | ⟨rfl, -⟩
        · exact ih hl hab hba
        · exact hc (hab.subset (List.mem_cons_of_mem a List.mem_cons_self))
      · rcases hba with hba | ⟨rfl, hb'⟩
        · exact hc (hba.subset (List.mem_cons_of_mem b List.mem_cons_self))
        · exact hc (hb'.subset List.mem_cons_self)

/-- A list of positioned elements is sorted by key, and by position where the keys are equal. -/
theorem pairwise_mergeSort_byKey {l : List (Nat × α)} (hl : l.Pairwise fun a b => a.1 < b.1) :
    (l.mergeSort (byKey fun e => key e.2)).Pairwise fun a b =>
      key a.2 < key b.2 ∨ key a.2 = key b.2 ∧ a.1 < b.1 := by
  have hsorted := List.pairwise_mergeSort (byKey_trans fun e : Nat × α => key e.2)
    (byKey_total fun e : Nat × α => key e.2) l
  have hnodup : (l.mergeSort (byKey fun e => key e.2)).Nodup :=
    (List.mergeSort_perm l _).nodup_iff.mpr (hl.imp fun h heq => absurd (heq ▸ h) (lt_irrefl _))
  rw [List.pairwise_iff_forall_sublist] at hsorted ⊢
  intro a b hab
  rcases lt_or_eq_of_le (of_decide_eq_true (hsorted hab)) with hlt | heq
  · exact .inl hlt
  · refine .inr ⟨heq, ?_⟩
    have ha : a ∈ l := List.mem_mergeSort.mp (hab.subset List.mem_cons_self)
    have hb : b ∈ l := List.mem_mergeSort.mp (hab.subset (List.mem_cons_of_mem a List.mem_cons_self))
    obtain ⟨before, after, rfl⟩ := List.append_of_mem ha
    have hpairs := List.pairwise_append.mp hl
    rcases List.mem_append.mp hb with hb | hb
    · -- With equal keys the one that comes first stays first.
      have hba : [b, a].Sublist (before ++ a :: after) :=
        (List.singleton_sublist.mpr hb).append (List.singleton_sublist.mpr List.mem_cons_self)
      have hle : byKey (fun e : Nat × α => key e.2) b a = true := decide_eq_true (le_of_eq heq.symm)
      exact absurd (List.pair_sublist_mergeSort (byKey_trans _) (byKey_total _) hle hba)
        (not_sublist_swap hnodup hab)
    · rcases List.mem_cons.mp hb with rfl | hb
      · exact absurd (hnodup.sublist hab) (by simp)
      · exact (List.pairwise_cons.mp hpairs.2.1).1 b hb

end Lib
end OrbitOpenEO
