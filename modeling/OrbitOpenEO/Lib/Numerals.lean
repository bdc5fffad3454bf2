import Mathlib.Algebra.Group.Nat.Defs
import Mathlib.Data.List.Basic
import Mathlib.Data.List.Induction

/-!
# Numerals

Digits, the numbers that they stand for, and two ways to write numbers down: in
decimals, and with four hexadecimal digits.
-/

namespace OrbitOpenEO
namespace Lib

/-- The value of a digit in a radix of at most 36. -/
def toDigit (radix : Nat) (c : Char) : Option Nat :=
  let value :=
    if c.isDigit then some (c.toNat - '0'.toNat)
    else if c.isLower then some (c.toNat - 'a'.toNat + 10)
    else if c.isUpper then some (c.toNat - 'A'.toNat + 10)
    else none
  value.filter (· < radix)

/-- The character is a digit in the radix. -/
def isRadixDigit (radix : Nat) (c : Char) : Bool := (toDigit radix c).isSome

/-- The number that digits stand for. -/
def numeral (radix : Nat) (digits : List Char) : Nat :=
  digits.foldl (fun n c => radix * n + (toDigit radix c).getD 0) 0

theorem toDigit_lt {radix : Nat} {c : Char} {d : Nat} (h : toDigit radix c = some d) :
    d < radix := by
  unfold toDigit at h
  exact of_decide_eq_true (Option.filter_eq_some_iff.mp h).2

theorem numeral_concat (radix : Nat) (digits : List Char) (c : Char) :
    numeral radix (digits ++ [c]) = radix * numeral radix digits + (toDigit radix c).getD 0 := by
  rw [numeral, List.foldl_append, List.foldl_cons, List.foldl_nil]
  rfl

/-- A number is bounded by its length. -/
theorem numeral_lt {radix : Nat} {digits : List Char}
    (h : ∀ c ∈ digits, isRadixDigit radix c = true) :
    numeral radix digits < radix ^ digits.length := by
  induction digits using List.reverseRecOn with
  | nil =>
      exact Nat.lt_succ_self 0
  | append_singleton digits c ih =>
      have hdigits := ih fun c hc => h c (List.mem_append_left _ hc)
      obtain ⟨d, hd⟩ :=
        Option.isSome_iff_exists.mp (h c (List.mem_append_right _ List.mem_cons_self))
      have hlt := toDigit_lt hd
      rw [numeral_concat, hd, Option.getD_some, List.length_append, List.length_singleton,
        Nat.pow_succ, Nat.mul_comm _ radix]
      calc radix * numeral radix digits + d
          < radix * numeral radix digits + radix := Nat.add_lt_add_left hlt _
        _ = radix * (numeral radix digits + 1) := (Nat.mul_succ _ _).symm
        _ ≤ radix * radix ^ digits.length := Nat.mul_le_mul_left _ hdigits

theorem toDigit_ten_of_isDigit {c : Char} (h : c.isDigit = true) :
    toDigit 10 c = some (c.toNat - '0'.toNat) := by
  unfold toDigit
  rw [if_pos h]
  have hbounds : '0'.toNat ≤ c.toNat ∧ c.toNat ≤ '9'.toNat := by
    simp only [Char.isDigit, Bool.and_eq_true, decide_eq_true_eq] at h
    exact h
  have h0 : '0'.toNat = 48 := rfl
  have h9 : '9'.toNat = 57 := rfl
  rw [Option.filter_some, if_pos (decide_eq_true (by omega))]

theorem isRadixDigit_ten_iff {c : Char} : isRadixDigit 10 c = true ↔ c.isDigit = true := by
  refine ⟨fun h => ?_, fun h => by rw [isRadixDigit, toDigit_ten_of_isDigit h]; rfl⟩
  unfold isRadixDigit toDigit at h
  dsimp only at h
  split_ifs at h with hdigit hlower hupper
  · exact hdigit
  · rw [Option.filter_some] at h
    split_ifs at h with hlt
    · rw [decide_eq_true_eq] at hlt
      omega
    · cases h
  · rw [Option.filter_some] at h
    split_ifs at h with hlt
    · rw [decide_eq_true_eq] at hlt
      omega
    · cases h
  · cases h

/-- The decimals of a number stand for it. -/
theorem numeral_toDigits (n : Nat) : numeral 10 (Nat.toDigits 10 n) = n := by
  have hfold : ∀ (digits : List Char), (∀ c ∈ digits, c.isDigit = true) → ∀ init : Nat,
      digits.foldl (fun n c => 10 * n + (toDigit 10 c).getD 0) init =
        digits.foldl (fun n c => 10 * n + (c.toNat - '0'.toNat)) init := by
    intro digits hall
    induction digits with
    | nil =>
        exact fun _ => rfl
    | cons c digits ih =>
        intro init
        rw [List.forall_mem_cons] at hall
        rw [List.foldl_cons, List.foldl_cons, ih hall.2, toDigit_ten_of_isDigit hall.1,
          Option.getD_some]
  unfold numeral
  rw [hfold _ fun c hc => Nat.isDigit_of_mem_toDigits (by decide) (by decide) hc]
  exact Nat.ofDigitChars_ten_toDigits

theorem digitChar_of_isDigit {c : Char} (h : c.isDigit = true) :
    Nat.digitChar (c.toNat - '0'.toNat) = c := by
  have hbounds : 48 ≤ c.toNat ∧ c.toNat ≤ 57 := by
    simp only [Char.isDigit, Bool.and_eq_true, decide_eq_true_eq] at h
    exact h
  have hall : ∀ n < 58, 48 ≤ n → Nat.digitChar (n - '0'.toNat) = Char.ofNat n := by decide
  rw [hall c.toNat (by omega) hbounds.1, Char.ofNat_toNat]

/-- Decimal digits are those of the number they stand for, unless there are zeros in front. -/
theorem toDigits_numeral (digits : List Char) (hne : digits ≠ [])
    (hall : ∀ c ∈ digits, c.isDigit = true)
    (hzero : digits.head? = some '0' → digits.length = 1) :
    Nat.toDigits 10 (numeral 10 digits) = digits := by
  induction digits using List.reverseRecOn with
  | nil =>
      exact absurd rfl hne
  | append_singleton digits c ih =>
      have hc : c.isDigit = true := hall c (List.mem_append_right _ List.mem_cons_self)
      have hdigit : c.toNat - '0'.toNat < 10 := toDigit_lt (toDigit_ten_of_isDigit hc)
      have hlast : Nat.toDigits 10 (c.toNat - '0'.toNat) = [c] := by
        rw [Nat.toDigits_of_lt_base hdigit, digitChar_of_isDigit hc]
      rw [numeral_concat, toDigit_ten_of_isDigit hc, Option.getD_some]
      by_cases hnil : digits = []
      case pos =>
        subst hnil
        have hzero : numeral 10 [] = 0 := rfl
        rw [hzero, Nat.mul_zero, Nat.zero_add, List.nil_append, hlast]
      case neg =>
        have hhead : digits.head? ≠ some '0' := by
          intro h
          have hlength := hzero (by rw [List.head?_append, h]; rfl)
          have hpos := List.length_pos_iff.mpr hnil
          rw [List.length_append, List.length_singleton] at hlength
          omega
        have hfront := ih hnil (fun c hc => hall c (List.mem_append_left _ hc))
          (fun h => absurd h hhead)
        have hpos : 0 < numeral 10 digits := by
          rw [Nat.pos_iff_ne_zero]
          intro h
          rw [h, Nat.toDigits_zero] at hfront
          rw [← hfront] at hhead
          exact hhead rfl
        rw [← Nat.toDigits_append_toDigits (by decide) hpos hdigit, hfront, hlast]

end Lib
end OrbitOpenEO
