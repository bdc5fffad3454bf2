import OrbitOpenEO.Lib.ShiftRegister
import Mathlib.Algebra.Polynomial.FieldDivision
import Mathlib.Data.List.GetD
import Mathlib.RingTheory.PrincipalIdealDomain

/-!
# Errors that a shift register sees

Two messages that differ only within as many consecutive bits as the register has leave
different registers, if the polynomial of the register has a constant term: it divides the
difference of the two, hence the difference of the bits within the window, and that has a lower
degree (`eq_of_foldl_feed_eq`).
-/

namespace OrbitOpenEO
namespace Lib
namespace ShiftRegister

open Polynomial

variable {w v : Nat}

/-- The bits of a word in the order in which they are fed in. -/
def wordBits (b : BitVec v) : List Bool := (List.range v).map b.getLsbD

/-- The bits of a message. -/
def messageBits (bs : List (BitVec v)) : List Bool := bs.flatMap wordBits

/-- The polynomial of some bits, the highest power first. -/
noncomputable def bitPolynomial : List Bool → (ZMod 2)[X]
  | [] => 0
  | b :: bs => (if b then X ^ bs.length else 0) + bitPolynomial bs

theorem length_wordBits (b : BitVec v) : (wordBits b).length = v := by
  rw [wordBits, List.length_map, List.length_range]

theorem length_messageBits (bs : List (BitVec v)) :
    (messageBits bs).length = v * bs.length := by
  induction bs with
  | nil => rfl
  | cons b bs ih =>
      rw [messageBits, List.flatMap_cons, List.length_append, length_wordBits]
      rw [messageBits] at ih
      rw [ih, List.length_cons, Nat.mul_succ, Nat.add_comm]

theorem bitPolynomial_append (xs ys : List Bool) :
    bitPolynomial (xs ++ ys) = X ^ ys.length * bitPolynomial xs + bitPolynomial ys := by
  induction xs with
  | nil => rw [List.nil_append, bitPolynomial, mul_zero, zero_add]
  | cons b xs ih =>
      rw [List.cons_append, bitPolynomial, ih, bitPolynomial, List.length_append]
      cases b with
      | true =>
          simp only [if_true]
          ring
      | false =>
          simp only [Bool.false_eq_true, if_false]
          ring

/-- The bits are the coefficients. -/
theorem coeff_bitPolynomial (bs : List Bool) (k : Nat) :
    (bitPolynomial bs).coeff k = if bs.reverse.getD k false then 1 else 0 := by
  induction bs with
  | nil => simp [bitPolynomial]
  | cons b bs ih =>
      rw [bitPolynomial, coeff_add, ih, List.reverse_cons]
      have hhead : ((if b then X ^ bs.length else 0 : (ZMod 2)[X]).coeff k) =
          if b ∧ k = bs.length then 1 else 0 := by
        cases b <;> simp [coeff_X_pow]
      rw [hhead]
      rcases lt_trichotomy k bs.length with hlt | heq | hgt
      · rw [List.getD_append _ _ _ _ (by rwa [List.length_reverse])]
        simp [hlt.ne]
      · subst heq
        simp
      · have hout : bs.reverse.getD k false = false := by
          simp [hgt.le]
        have hout' : (bs.reverse ++ [b]).getD k false = false := by
          rw [List.getD_append_right _ _ _ _ (by simpa using hgt.le)]
          have hpos : k - bs.reverse.length ≠ 0 := by
            rw [List.length_reverse]
            omega
          cases hk : k - bs.reverse.length with
          | zero => exact absurd hk hpos
          | succ n => rfl
        rw [hout, hout']
        simp [hgt.ne']

theorem degree_bitPolynomial_lt (bs : List Bool) : (bitPolynomial bs).degree < bs.length := by
  refine (degree_lt_iff_coeff_zero _ _).mpr fun k hk => ?_
  rw [coeff_bitPolynomial, if_neg]
  simp [hk]

/-- Bits of the same number with the same polynomial are the same. -/
theorem bitPolynomial_inj {xs ys : List Bool} (hlength : xs.length = ys.length)
    (h : bitPolynomial xs = bitPolynomial ys) : xs = ys := by
  refine List.reverse_injective (List.ext_getElem (by simpa using hlength) fun k hk hk' => ?_)
  have hcoeff := Polynomial.ext_iff.mp h k
  rw [coeff_bitPolynomial, coeff_bitPolynomial, List.getD_eq_getElem _ _ hk,
    List.getD_eq_getElem _ _ hk'] at hcoeff
  cases hx : xs.reverse[k] <;> cases hy : ys.reverse[k] <;> simp_all

theorem reflected_eq_bitPolynomial (b : BitVec v) : reflected b = bitPolynomial (wordBits b) := by
  ext k
  rw [coeff_reflected, coeff_bitPolynomial]
  have hbit : (wordBits b).reverse.getD k false = b.getMsbD k := by
    by_cases hk : k < v
    · have hlt : k < (wordBits b).reverse.length := by
        rwa [List.length_reverse, length_wordBits]
      rw [List.getD_eq_getElem _ _ hlt, List.getElem_reverse, BitVec.getMsbD_eq_getLsbD]
      simp [wordBits, hk]
    · rw [BitVec.getMsbD_of_ge b k (not_lt.mp hk)]
      simp [length_wordBits, not_lt.mp hk]
  rw [hbit]

theorem message_eq_bitPolynomial (bs : List (BitVec v)) :
    message bs = bitPolynomial (messageBits bs) := by
  induction bs with
  | nil => rfl
  | cons b bs ih =>
      have hbits : messageBits (b :: bs) = wordBits b ++ messageBits bs := by
        rw [messageBits, List.flatMap_cons, ← messageBits]
      rw [hbits, bitPolynomial_append, ← reflected_eq_bitPolynomial, ← ih, length_messageBits,
        message]

/-- A polynomial with a constant term divides no more when powers of `X` are multiplied on. -/
theorem dvd_of_dvd_X_pow_mul {g : BitVec w} (hg : g.getMsbD 0 = true) {n : Nat} {p : (ZMod 2)[X]}
    (h : generator g ∣ X ^ n * p) : generator g ∣ p := by
  have hpos : w ≠ 0 := by
    rintro rfl
    rw [BitVec.getMsbD_of_ge g 0 (Nat.le_refl 0)] at hg
    cases hg
  have hnot : ¬ X ∣ generator g := by
    rw [X_dvd_iff, generator, coeff_add, coeff_X_pow, coeff_reflected, hg, if_pos rfl,
      if_neg (Ne.symm hpos), zero_add]
    exact one_ne_zero
  have hcoprime : IsCoprime (X : (ZMod 2)[X]) (generator g) :=
    (irreducible_X : Irreducible (X : (ZMod 2)[X])).coprime_iff_not_dvd.mpr hnot
  exact (hcoprime.pow_left (m := n)).symm.dvd_of_dvd_mul_left h

/-- **A burst that fits into the register is seen.** -/
theorem eq_of_foldl_feed_eq (hvw : v ≤ w) {g c : BitVec w} (hg : g.getMsbD 0 = true)
    {bs bs' : List (BitVec v)} (hcount : bs.length = bs'.length) {before burst burst' after : List Bool}
    (hbs : messageBits bs = before ++ burst ++ after)
    (hbs' : messageBits bs' = before ++ burst' ++ after) (hlength : burst.length = burst'.length)
    (hfits : burst.length ≤ w) (h : bs.foldl (feed g) c = bs'.foldl (feed g) c) :
    burst = burst' := by
  have hdiff : message bs - message bs' =
      X ^ after.length * (bitPolynomial burst - bitPolynomial burst') := by
    rw [message_eq_bitPolynomial, message_eq_bitPolynomial, hbs, hbs']
    simp only [bitPolynomial_append, hlength]
    ring
  have hdvd : generator g ∣ X ^ (w + after.length) *
      (bitPolynomial burst - bitPolynomial burst') := by
    have hreflected := congrArg reflected h
    rw [reflected_foldl hvw, reflected_foldl hvw, hcount, ← sub_eq_zero, ← sub_modByMonic,
      modByMonic_eq_zero_iff_dvd (generator_monic g)] at hreflected
    rw [pow_add, mul_assoc, ← hdiff]
    convert hreflected using 1
    ring
  have hsmall : (bitPolynomial burst - bitPolynomial burst').degree < (generator g).degree := by
    rw [degree_generator]
    refine lt_of_lt_of_le ?_ (Nat.cast_le.mpr hfits)
    refine lt_of_le_of_lt (degree_sub_le _ _) (max_lt (degree_bitPolynomial_lt _) ?_)
    rw [hlength]
    exact degree_bitPolynomial_lt _
  have hzero := eq_zero_of_dvd_of_degree_lt (dvd_of_dvd_X_pow_mul hg hdvd) hsmall
  exact bitPolynomial_inj hlength (sub_eq_zero.mp hzero)

end ShiftRegister
end Lib
end OrbitOpenEO
