import Mathlib.Algebra.Field.ZMod
import Mathlib.Algebra.Polynomial.Div
import Mathlib.Logic.Function.Iterate
import Mathlib.Tactic.LinearCombination
import Mathlib.Tactic.Ring

/-!
# Shift registers and polynomial division

A register of `w` bits stands for a polynomial over the field with two elements, the highest
power in its lowest bit.  A shift to the right multiplies it by `X`, and the exclusive or with
the feedback word after a one has been shifted out takes the remainder by the generator
(`reflected_shift`).  Words that are fed in at the low end therefore leave the remainder of the
polynomial that they make up (`reflected_foldl`).
-/

namespace OrbitOpenEO
namespace Lib
namespace ShiftRegister

open Polynomial

variable {w v : Nat}

/-- The polynomial of a register, the highest power in the lowest bit. -/
noncomputable def reflected (c : BitVec w) : (ZMod 2)[X] :=
  ∑ k ∈ Finset.range w, if c.getMsbD k then X ^ k else 0

/-- The register of a polynomial: its powers below `w`, the highest in the lowest bit. -/
noncomputable def register (w : Nat) (p : (ZMod 2)[X]) : BitVec w :=
  BitVec.ofBoolListBE ((List.range w).map fun k => decide (p.coeff k = 1)) |>.cast (by simp)

theorem coeff_reflected (c : BitVec w) (k : Nat) :
    (reflected c).coeff k = if c.getMsbD k then 1 else 0 := by
  unfold reflected
  rw [finsetSum_coeff]
  by_cases hk : k < w
  · rw [Finset.sum_eq_single_of_mem k (Finset.mem_range.mpr hk)]
    · split_ifs
      · rw [coeff_X_pow_self]
      · rw [coeff_zero]
    · intro j _ hj
      split_ifs
      · rw [coeff_X_pow, if_neg hj.symm]
      · rw [coeff_zero]
  · rw [BitVec.getMsbD_of_ge c k (not_lt.mp hk), if_neg (by decide)]
    refine Finset.sum_eq_zero fun j hj => ?_
    split_ifs
    · rw [coeff_X_pow, if_neg (by have := Finset.mem_range.mp hj; omega)]
    · rw [coeff_zero]

theorem reflected_injective : Function.Injective (reflected (w := w)) := by
  intro a b h
  refine BitVec.eq_of_getMsbD_eq fun k _ => ?_
  have hk := Polynomial.ext_iff.mp h k
  rw [coeff_reflected, coeff_reflected] at hk
  cases ha : a.getMsbD k <;> cases hb : b.getMsbD k <;> simp_all

theorem reflected_xor (a b : BitVec w) : reflected (a ^^^ b) = reflected a + reflected b := by
  ext k
  rw [coeff_add, coeff_reflected, coeff_reflected, coeff_reflected, BitVec.getMsbD_xor]
  cases a.getMsbD k <;> cases b.getMsbD k <;> decide

theorem degree_reflected_lt (c : BitVec w) : (reflected c).degree < w := by
  refine (degree_lt_iff_coeff_zero _ _).mpr fun k hk => ?_
  rw [coeff_reflected, BitVec.getMsbD_of_ge c k hk, if_neg (by decide)]

/-- A polynomial of a register is read back into it. -/
theorem register_reflected (c : BitVec w) : register w (reflected c) = c := by
  refine BitVec.eq_of_getMsbD_eq fun k hk => ?_
  unfold register
  rw [BitVec.getMsbD_cast, BitVec.getMsbD_ofBoolListBE, List.getD_eq_getElem?_getD,
    List.getElem?_map, List.getElem?_range hk, Option.map_some, Option.getD_some, coeff_reflected]
  cases c.getMsbD k <;> decide

/-- A word in the low bits of a register. -/
theorem reflected_setWidth (h : v ≤ w) (b : BitVec v) :
    reflected (b.setWidth w) = X ^ (w - v) * reflected b := by
  ext k
  rw [coeff_X_pow_mul', coeff_reflected, coeff_reflected, BitVec.getMsbD_setWidth]
  by_cases hk : w - v ≤ k
  · have hpos : k + v - w = k - (w - v) := by omega
    simp [hk, hpos]
  · simp [hk]

/-- What `n` shifts move out of the register is what stood in its low `n` bits. -/
theorem X_pow_mul_reflected {n : Nat} {c low : BitVec w}
    (hlow : ∀ i, low.getLsbD i = (decide (i < n) && c.getLsbD i)) :
    X ^ n * reflected c = reflected (c >>> n) + X ^ n * reflected low := by
  ext k
  rw [coeff_add, coeff_X_pow_mul', coeff_X_pow_mul', coeff_reflected, coeff_reflected,
    coeff_reflected, BitVec.getMsbD_ushiftRight, BitVec.getMsbD_eq_getLsbD low, hlow,
    BitVec.getMsbD_eq_getLsbD c (k - n)]
  by_cases hk : n ≤ k
  · by_cases hin : k < w
    · have hout : ¬ w - 1 - (k - n) < n := by omega
      have hlt : ¬ k < n := by omega
      simp [hk, hin, hout, hlt]
    · by_cases hw : k - n < w
      · have hlow : w - 1 - (k - n) < n := by omega
        simp [hk, hin, hw, hlow]
      · simp [hk, hin, hw]
  · have hlt : k < n := by omega
    simp [hk, hlt]

/-- One shift of the register; a one that is shifted out brings the feedback word in. -/
def feedbackShift (g c : BitVec w) : BitVec w :=
  if c.getLsbD 0 then g ^^^ (c >>> 1) else c >>> 1

/-- The polynomial that a feedback word divides by. -/
noncomputable def generator (g : BitVec w) : (ZMod 2)[X] := X ^ w + reflected g

theorem generator_monic (g : BitVec w) : (generator g).Monic :=
  monic_X_pow_add (degree_reflected_lt g)

theorem degree_generator (g : BitVec w) : (generator g).degree = w := by
  unfold generator
  rw [degree_add_eq_left_of_degree_lt, degree_X_pow]
  rw [degree_X_pow]
  exact degree_reflected_lt g

/-- The register holds a remainder as it is. -/
theorem reflected_modByMonic (g c : BitVec w) : reflected c %ₘ generator g = reflected c := by
  rw [modByMonic_eq_self_iff (generator_monic g), degree_generator]
  exact degree_reflected_lt c

/-- The remainder of a product takes that of a factor. -/
theorem mul_modByMonic_left (g : BitVec w) (p q : (ZMod 2)[X]) :
    (p * (q %ₘ generator g)) %ₘ generator g = (p * q) %ₘ generator g := by
  refine modByMonic_eq_of_dvd_sub (generator_monic g) ?_
  rw [← mul_sub]
  exact Dvd.dvd.mul_left (dvd_modByMonic_sub q (generator g)) p

theorem X_mul_reflected (c : BitVec w) :
    X * reflected c = reflected (c >>> 1) + if c.getLsbD 0 then X ^ w else 0 := by
  have hout : ∀ k, ((if c.getLsbD 0 then X ^ w else 0 : (ZMod 2)[X]).coeff k) =
      if c.getLsbD 0 ∧ k = w then 1 else 0 := by
    intro k
    split_ifs
    all_goals simp_all [coeff_X_pow]
  ext k
  rw [coeff_add, hout]
  cases k with
  | zero =>
      rw [coeff_X_mul_zero, coeff_reflected, BitVec.getMsbD_ushiftRight]
      rcases Nat.eq_zero_or_pos w with hw | hw
      · subst hw
        simp
      · simp [hw.ne]
  | succ k =>
      rw [coeff_X_mul, coeff_reflected, coeff_reflected, BitVec.getMsbD_ushiftRight,
        BitVec.getMsbD_eq_getLsbD c]
      rcases lt_trichotomy (k + 1) w with hlt | heq | hgt
      · have hk : k < w := by omega
        simp [hlt, hlt.ne, hk, BitVec.getMsbD_eq_getLsbD]
      · subst heq
        simp
      · have hk : ¬ k < w := by omega
        simp [hgt.ne', hk, hgt.not_gt]

/-- **A shift with feedback multiplies by `X` and takes the remainder.** -/
theorem reflected_feedbackShift (g c : BitVec w) :
    reflected (feedbackShift g c) = (X * reflected c) %ₘ generator g := by
  rw [← reflected_modByMonic g (feedbackShift g c), X_mul_reflected]
  unfold feedbackShift
  split_ifs
  · have hsum : reflected (g ^^^ (c >>> 1)) = reflected (c >>> 1) + X ^ w - generator g := by
      rw [reflected_xor, generator]
      linear_combination (CharTwo.add_self_eq_zero (reflected g))
    refine modByMonic_eq_of_dvd_sub (generator_monic g) ⟨-1, ?_⟩
    rw [hsum]
    ring
  · rw [add_zero]

theorem reflected_iterate (g c : BitVec w) (n : Nat) :
    reflected ((feedbackShift g)^[n] c) = (X ^ n * reflected c) %ₘ generator g := by
  induction n with
  | zero =>
      rw [Function.iterate_zero_apply, pow_zero, one_mul, reflected_modByMonic]
  | succ n ih =>
      rw [Function.iterate_succ_apply', reflected_feedbackShift, ih, mul_modByMonic_left,
        pow_succ', mul_assoc]

/-- Shifts only have to be carried out on the bits that they move out. -/
theorem iterate_feedbackShift (g : BitVec w) {n : Nat} {c low : BitVec w}
    (hlow : ∀ i, low.getLsbD i = (decide (i < n) && c.getLsbD i)) :
    (feedbackShift g)^[n] c = (c >>> n) ^^^ (feedbackShift g)^[n] low := by
  refine reflected_injective ?_
  rw [reflected_xor, reflected_iterate, reflected_iterate, X_pow_mul_reflected hlow,
    add_modByMonic, reflected_modByMonic]

/-- A word is put over the low end of the register, which is then shifted by its width. -/
def feed (g c : BitVec w) (b : BitVec v) : BitVec w := (feedbackShift g)^[v] (c ^^^ b.setWidth w)

/-- The polynomial of a message: the first word has the highest powers, and in every word the
lowest bit has. -/
noncomputable def message : List (BitVec v) → (ZMod 2)[X]
  | [] => 0
  | b :: bs => X ^ (v * bs.length) * reflected b + message bs

theorem reflected_feed (h : v ≤ w) (g c : BitVec w) (b : BitVec v) :
    reflected (feed g c b) = (X ^ v * reflected c + X ^ w * reflected b) %ₘ generator g := by
  have hpow : (X : (ZMod 2)[X]) ^ w = X ^ v * X ^ (w - v) := by
    rw [← pow_add, Nat.add_sub_cancel' h]
  rw [feed, reflected_iterate, reflected_xor, reflected_setWidth h, mul_add, hpow, mul_assoc]

/-- **A register holds the remainder of what it started with and of the message.** -/
theorem reflected_foldl (h : v ≤ w) (g c : BitVec w) (bs : List (BitVec v)) :
    reflected (bs.foldl (feed g) c) =
      (X ^ (v * bs.length) * reflected c + X ^ w * message bs) %ₘ generator g := by
  induction bs generalizing c with
  | nil =>
      simp [message, reflected_modByMonic]
  | cons b bs ih =>
      have hlen : v * (b :: bs).length = v * bs.length + v := by
        rw [List.length_cons, Nat.mul_succ]
      rw [List.foldl_cons, ih, reflected_feed h, add_modByMonic, mul_modByMonic_left,
        ← add_modByMonic, message, hlen, pow_add]
      congr 1
      ring

end ShiftRegister
end Lib
end OrbitOpenEO
