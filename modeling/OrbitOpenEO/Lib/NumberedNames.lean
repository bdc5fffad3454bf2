import Mathlib.Tactic.Common
import Mathlib.Data.List.Basic

/-!
# Names that end in a number

A name made of a stem, a marker letter, a number and an ending can be taken
apart again: the digits end where the marker letter is found from the right.
-/

namespace OrbitOpenEO
namespace Lib

/-- The number and what stands before it can be read off, since no digit is the
marker letter. -/
theorem digits_marker_inj {c : Char} (hc : c.isDigit = false) {xs ys : List Char} {m n : Nat}
    (h : xs ++ c :: Nat.toDigits 10 m = ys ++ c :: Nat.toDigits 10 n) : xs = ys ∧ m = n := by
  have hno : ∀ k : Nat, ∀ d ∈ (Nat.toDigits 10 k).reverse, decide (d ≠ c) = true := by
    intro k d hd
    have hdigit := Nat.isDigit_of_mem_toDigits (by decide) (by decide) (List.mem_reverse.mp hd)
    rw [decide_eq_true_eq]
    rintro rfl
    rw [hc] at hdigit
    cases hdigit
  have hrev : (Nat.toDigits 10 m).reverse ++ c :: xs.reverse =
      (Nat.toDigits 10 n).reverse ++ c :: ys.reverse := by
    simpa using congrArg List.reverse h
  have hdigits := congrArg (List.takeWhile (fun d => decide (d ≠ c))) hrev
  rw [List.takeWhile_append_of_pos (hno m), List.takeWhile_append_of_pos (hno n)] at hdigits
  simp only [List.takeWhile_cons, ne_eq, not_true_eq_false, decide_false, Bool.false_eq_true,
    if_false, List.append_nil, List.reverse_inj] at hdigits
  have hmn : m = n := by
    have hparsed := congrArg (fun ds => Nat.ofDigitChars 10 ds 0) hdigits
    simpa using hparsed
  subst hmn
  exact ⟨List.append_cancel_right h, rfl⟩

/-- Two numbered names with the same ending are equal only part by part. -/
theorem numbered_inj {stem₁ stem₂ ending : String} {c : Char} (hc : c.isDigit = false) {m n : Nat}
    (h : stem₁ ++ String.singleton c ++ toString m ++ ending =
      stem₂ ++ String.singleton c ++ toString n ++ ending) : stem₁ = stem₂ ∧ m = n := by
  have hlist := congrArg String.toList h
  simp only [String.toList_append, String.toList_singleton, Nat.toString_eq_repr,
    Nat.toList_repr, List.append_assoc, List.cons_append, List.nil_append] at hlist
  have hcut : (stem₁.toList ++ c :: Nat.toDigits 10 m) ++ ending.toList =
      (stem₂.toList ++ c :: Nat.toDigits 10 n) ++ ending.toList := by
    simpa using hlist
  obtain ⟨hstem, hmn⟩ := digits_marker_inj hc (List.append_cancel_right hcut)
  exact ⟨String.toList_inj.mp hstem, hmn⟩

end Lib
end OrbitOpenEO
