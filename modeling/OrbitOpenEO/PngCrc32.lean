import OrbitOpenEO.Lib.ShiftRegister

/-!
# The checksum of a PNG chunk

`png_crc32` divides by table-free byte rounds: the low byte of the register is shifted out with
feedback on its own and put back over the rest (`crcByte_toBitVec`).  The value is the remainder
of the PNG specification: of the message followed by 32 zeros, with the first 32 bits
complemented, by the polynomial of degree 32, in reflected order and complemented.
-/

namespace OrbitOpenEO

open Lib.ShiftRegister Polynomial

/-- The body of the loop over the bits. -/
def crcBit (c : UInt32) : UInt32 :=
  if c &&& 1 != 0 then (0xEDB88320 : UInt32) ^^^ (c >>> 1) else c >>> 1

/-- The body of the loop over the bytes. -/
def crcByte (crc : UInt32) (b : UInt8) : UInt32 :=
  let c := crcBit^[8] ((crc ^^^ b.toUInt32) &&& 0xFF)
  (crc >>> 8) ^^^ c

/-- `png_crc32`. -/
def pngCrc32 (buf : List UInt8) : UInt32 :=
  buf.foldl crcByte 0xFFFFFFFF ^^^ 0xFFFFFFFF

/-- The polynomial of the specification. -/
noncomputable def crcPolynomial : (ZMod 2)[X] :=
  X ^ 32 + X ^ 26 + X ^ 23 + X ^ 22 + X ^ 16 + X ^ 12 + X ^ 11 + X ^ 10 + X ^ 8 + X ^ 7 + X ^ 5 +
    X ^ 4 + X ^ 2 + X + 1

/-- The message polynomial: the first byte has the highest powers, and in every byte the lowest
bit has. -/
noncomputable def messagePolynomial (buf : List UInt8) : (ZMod 2)[X] :=
  message (buf.map UInt8.toBitVec)

/-- Thirty-two ones, which the register starts with. -/
noncomputable def initialOnes : (ZMod 2)[X] := ∑ k ∈ Finset.range 32, X ^ k

/-- The remainder of the specification: the ones complement the first 32 bits. -/
noncomputable def crcRemainder (buf : List UInt8) : (ZMod 2)[X] :=
  (X ^ (8 * buf.length) * initialOnes + X ^ 32 * messagePolynomial buf) %ₘ crcPolynomial

theorem crcBit_toBitVec (c : UInt32) :
    (crcBit c).toBitVec = feedbackShift 0xEDB88320#32 c.toBitVec := by
  have hlow : (c &&& 1 != 0) = c.toBitVec.getLsbD 0 := by
    rw [bne, ← Bool.not_inj_iff, Bool.not_not, Bool.eq_iff_iff, beq_iff_eq,
      ← UInt32.toBitVec_inj, UInt32.toBitVec_and]
    have hone : (1 : UInt32).toBitVec = 1#32 := rfl
    rw [hone, BitVec.and_one_eq_setWidth_ofBool_getLsbD]
    cases c.toBitVec.getLsbD 0 <;> decide
  unfold crcBit feedbackShift
  rw [hlow]
  split_ifs
  · rw [UInt32.toBitVec_xor, UInt32.toBitVec_shiftRight]
    rfl
  · rw [UInt32.toBitVec_shiftRight]
    rfl

theorem iterate_crcBit_toBitVec (n : Nat) (c : UInt32) :
    (crcBit^[n] c).toBitVec = (feedbackShift 0xEDB88320#32)^[n] c.toBitVec := by
  induction n with
  | zero =>
      rfl
  | succ n ih =>
      rw [Function.iterate_succ_apply', Function.iterate_succ_apply', crcBit_toBitVec, ih]

/-- One round feeds a byte in. -/
theorem crcByte_toBitVec (crc : UInt32) (b : UInt8) :
    (crcByte crc b).toBitVec = feed 0xEDB88320#32 crc.toBitVec b.toBitVec := by
  have hlow : ∀ i, ((crc ^^^ b.toUInt32) &&& 0xFF).toBitVec.getLsbD i =
      (decide (i < 8) && (crc.toBitVec ^^^ b.toBitVec.setWidth 32).getLsbD i) := by
    intro i
    have hmask : (0xFF#32).getLsbD i = decide (i < 8) := by
      rw [BitVec.getLsbD_ofNat, show 0xFF = 2 ^ 8 - 1 by rfl, Nat.testBit_two_pow_sub_one]
      by_cases hi : i < 8
      · simp [hi]
        omega
      · simp [hi]
    rw [UInt32.toBitVec_and, BitVec.getLsbD_and, Bool.and_comm]
    exact congrArg₂ _ hmask rfl
  have hhigh : (crc.toBitVec ^^^ b.toBitVec.setWidth 32) >>> 8 = crc.toBitVec >>> 8 := by
    refine BitVec.eq_of_getLsbD_eq fun i _ => ?_
    simp
  unfold crcByte feed
  rw [iterate_feedbackShift 0xEDB88320#32 hlow, hhigh, UInt32.toBitVec_xor,
    iterate_crcBit_toBitVec, UInt32.toBitVec_shiftRight]
  rfl

theorem foldl_crcByte_toBitVec (buf : List UInt8) (crc : UInt32) :
    (buf.foldl crcByte crc).toBitVec =
      (buf.map UInt8.toBitVec).foldl (feed 0xEDB88320#32) crc.toBitVec := by
  induction buf generalizing crc with
  | nil =>
      rfl
  | cons b buf ih =>
      rw [List.foldl_cons, ih, List.map_cons, List.foldl_cons, crcByte_toBitVec]

/-- The feedback word is that of the specification. -/
theorem generator_crc : generator 0xEDB88320#32 = crcPolynomial := by
  unfold generator reflected crcPolynomial
  simp [Finset.sum_range_succ]
  ring

theorem reflected_allOnes : reflected 0xFFFFFFFF#32 = initialOnes := by
  unfold reflected initialOnes
  refine Finset.sum_congr rfl fun k hk => if_pos ?_
  have hall : ∀ k < 32, (0xFFFFFFFF#32).getMsbD k = true := by decide
  exact hall k (Finset.mem_range.mp hk)

/-- **`png_crc32` is the checksum of the PNG specification.** -/
theorem pngCrc32_eq (buf : List UInt8) :
    (pngCrc32 buf).toBitVec = register 32 (crcRemainder buf) ^^^ 0xFFFFFFFF#32 := by
  have hremainder : crcRemainder buf = reflected (buf.foldl crcByte 0xFFFFFFFF).toBitVec := by
    rw [foldl_crcByte_toBitVec, reflected_foldl (by decide), generator_crc, List.length_map]
    exact congrArg (fun p => (_ * p + _) %ₘ crcPolynomial) reflected_allOnes.symm
  rw [hremainder, register_reflected]
  rfl

example : pngCrc32 [73, 69, 78, 68] = 0xAE426082 := by decide

end OrbitOpenEO
