import Mathlib.Data.List.Basic
import Mathlib.Data.String.Basic
import Mathlib.Tactic.Common

/-!
# Text as UTF-8 bytes

The encodings of the characters form a prefix code, and a byte of an encoding can
start one only if it is the first.  This is what a decoder that works on bytes needs
to say something about characters.
-/

namespace OrbitOpenEO
namespace Lib

/-- The bytes of a text. -/
def utf8 (cs : List Char) : List UInt8 := cs.flatMap String.utf8EncodeChar

@[simp] theorem utf8_nil : utf8 [] = [] := rfl

@[simp] theorem utf8_cons (c : Char) (cs : List Char) :
    utf8 (c :: cs) = String.utf8EncodeChar c ++ utf8 cs := List.flatMap_cons

theorem byteArray_toList_loop (bytes : ByteArray) (i : Nat) (acc : List UInt8) :
    ByteArray.toList.loop bytes i acc = acc.reverse ++ bytes.data.toList.drop i := by
  fun_induction ByteArray.toList.loop bytes i acc with
  | case1 i acc hi ih =>
      have hi' : i < bytes.data.toList.length := hi
      rw [ih, List.drop_eq_getElem_cons hi', List.reverse_cons, List.append_assoc,
        List.singleton_append]
      congr 2
      exact getElem!_pos bytes.data i hi
  | case2 i acc hi =>
      have hi' : bytes.data.toList.length ≤ i := Nat.le_of_not_lt hi
      rw [List.drop_of_length_le hi', List.append_nil]

theorem byteArray_toList (bytes : ByteArray) : bytes.toList = bytes.data.toList := by
  unfold ByteArray.toList
  rw [byteArray_toList_loop]
  rfl

theorem toUTF8_toList (s : String) : s.toUTF8.toList = utf8 s.toList := by
  rw [byteArray_toList, String.toUTF8_eq_toByteArray, ← String.utf8Encode_toList]
  exact List.toList_data_toByteArray

/-- The bytes of a text are read back as that text. -/
theorem eq_utf8_of_fromUTF8? {bytes : List UInt8} {t : String}
    (h : String.fromUTF8? ⟨bytes.toArray⟩ = some t) : bytes = utf8 t.toList := by
  unfold String.fromUTF8? at h
  split_ifs at h with hvalid
  cases h
  rw [← toUTF8_toList, byteArray_toList]
  rfl

theorem fromUTF8?_utf8 (cs : List Char) :
    String.fromUTF8? ⟨(utf8 cs).toArray⟩ = some (String.ofList cs) := by
  have hbytes : (⟨(utf8 cs).toArray⟩ : ByteArray) = cs.utf8Encode := by
    refine ByteArray.ext (Array.toList_inj.mp ?_)
    exact List.toList_data_toByteArray.symm
  rw [hbytes]
  exact dif_pos ByteArray.isValidUTF8_utf8Encode

/-- No encoding is the beginning of another one. -/
theorem utf8EncodeChar_append_inj {c d : Char} {xs ys : List UInt8}
    (h : String.utf8EncodeChar c ++ xs = String.utf8EncodeChar d ++ ys) : c = d ∧ xs = ys := by
  have hread := congrArg (fun bytes => bytes.toByteArray.utf8DecodeChar? 0) h
  simp only [List.toByteArray_append, ByteArray.utf8DecodeChar?_utf8EncodeChar_append,
    Option.some.injEq] at hread
  subst hread
  exact ⟨rfl, List.append_cancel_left h⟩

/-- The first byte of an encoding, and the bytes that continue it. -/
theorem utf8EncodeChar_eq_cons (c : Char) : ∃ first more,
    String.utf8EncodeChar c = first :: more ∧ first.IsUTF8FirstByte ∧
      ∀ b ∈ more, ¬ b.IsUTF8FirstByte := by
  cases hc : String.utf8EncodeChar c with
  | nil => exact absurd hc String.utf8EncodeChar_ne_nil
  | cons first more =>
      refine ⟨first, more, rfl, ?_, ?_⟩
      · have hzero : 0 < (String.utf8EncodeChar c).length := by
          rw [hc]
          exact Nat.zero_lt_succ _
        have hfirst := (@UInt8.isUTF8FirstByte_getElem_utf8EncodeChar c 0 hzero).mpr rfl
        simpa only [hc, List.getElem_cons_zero] using hfirst
      · intro b hb hbfirst
        obtain ⟨i, hi, rfl⟩ := List.getElem_of_mem hb
        have hi' : i + 1 < (String.utf8EncodeChar c).length := by
          rw [hc]
          exact Nat.succ_lt_succ hi
        have hindex := (@UInt8.isUTF8FirstByte_getElem_utf8EncodeChar c (i + 1) hi').mp
          (by simpa only [hc, List.getElem_cons_succ] using hbfirst)
        cases hindex

theorem utf8EncodeChar_ascii {a : Char} (ha : a.toNat < 128) :
    String.utf8EncodeChar a = [UInt8.ofNat a.toNat] :=
  if_pos (Nat.le_of_lt_succ ha)

/-- An ASCII byte comes from its own character only. -/
theorem eq_of_ascii_mem_utf8EncodeChar {a c : Char} (ha : a.toNat < 128)
    (hmem : UInt8.ofNat a.toNat ∈ String.utf8EncodeChar c) : c = a := by
  obtain ⟨first, more, hc, _, hmore⟩ := utf8EncodeChar_eq_cons c
  obtain ⟨first', more', ha', hstarts, _⟩ := utf8EncodeChar_eq_cons a
  rw [utf8EncodeChar_ascii ha, List.cons.injEq] at ha'
  rw [← ha'.1] at hstarts
  rw [hc, List.mem_cons] at hmem
  have hfirst : UInt8.ofNat a.toNat = first := hmem.resolve_right fun h => hmore _ h hstarts
  have hcodes : String.utf8EncodeChar c ++ [] = String.utf8EncodeChar a ++ more := by
    rw [List.append_nil, hc, utf8EncodeChar_ascii ha, hfirst]
    rfl
  exact (utf8EncodeChar_append_inj hcodes).1

/-- A text whose bytes begin with an ASCII byte begins with that character. -/
theorem utf8_eq_cons_ascii {a : Char} (ha : a.toNat < 128) {cs : List Char}
    {bytes : List UInt8} (h : utf8 cs = UInt8.ofNat a.toNat :: bytes) :
    ∃ cs', cs = a :: cs' ∧ utf8 cs' = bytes := by
  cases cs with
  | nil => cases h
  | cons c cs' =>
      have hc : String.utf8EncodeChar c ++ utf8 cs' = String.utf8EncodeChar a ++ bytes := by
        rw [utf8EncodeChar_ascii ha]
        exact h
      obtain ⟨rfl, hrest⟩ := utf8EncodeChar_append_inj hc
      exact ⟨cs', rfl, hrest⟩

/-- A byte that continues a character. -/
def isContinuation (b : UInt8) : Bool := 0x80 ≤ b && b ≤ 0xBF

/-- The second byte can follow a first one of three or four. -/
def canFollow (first second : UInt8) : Bool :=
  if first = 0xE0 then 0xA0 ≤ second && second ≤ 0xBF
  else if first = 0xED then 0x80 ≤ second && second ≤ 0x9F
  else if first = 0xF0 then 0x90 ≤ second && second ≤ 0xBF
  else if first = 0xF4 then 0x80 ≤ second && second ≤ 0x8F
  else 0xE1 ≤ first && first ≤ 0xF3 && isContinuation second

/-- The number of bytes behind the first that belong to a character that breaks off. -/
def brokenLength (first : UInt8) : List UInt8 → Nat
  | [] => 0
  | [second] => if canFollow first second then 1 else 0
  | second :: third :: _ =>
      if !canFollow first second then 0
      else if 0xF0 ≤ first && isContinuation third then 2
      else 1

/-- A decoder that has some bytes of its last character still before it.  For each part
that is no character it puts U+FFFD. -/
def decodeLossyFrom : Nat → List UInt8 → List Char
  | _, [] => []
  | n + 1, _ :: bytes => decodeLossyFrom n bytes
  | 0, b :: bytes =>
      match (b :: bytes).toByteArray.utf8DecodeChar? 0 with
      | some c => c :: decodeLossyFrom (c.utf8Size - 1) bytes
      | none => Char.ofNat 0xFFFD :: decodeLossyFrom (brokenLength b bytes) bytes

/-- `String::from_utf8_lossy`. -/
def decodeLossy (bytes : List UInt8) : List Char := decodeLossyFrom 0 bytes

theorem decodeLossyFrom_append (xs ys : List UInt8) :
    decodeLossyFrom xs.length (xs ++ ys) = decodeLossy ys := by
  induction xs with
  | nil => rfl
  | cons x xs ih => exact ih

/-- Of a text nothing is lost. -/
theorem decodeLossy_utf8 (cs : List Char) : decodeLossy (utf8 cs) = cs := by
  induction cs with
  | nil => rfl
  | cons c cs ih =>
      have hread : (String.utf8EncodeChar c ++ utf8 cs).toByteArray.utf8DecodeChar? 0 = some c := by
        rw [List.toByteArray_append, ByteArray.utf8DecodeChar?_utf8EncodeChar_append]
      have hlength := String.length_utf8EncodeChar c
      rw [utf8_cons]
      cases hc : String.utf8EncodeChar c with
      | nil => exact absurd hc String.utf8EncodeChar_ne_nil
      | cons first more =>
          rw [hc] at hread hlength
          have hmore : c.utf8Size - 1 = more.length := by
            rw [← hlength, List.length_cons, Nat.add_sub_cancel]
          rw [List.cons_append] at hread
          rw [List.cons_append, decodeLossy, decodeLossyFrom, hread]
          dsimp only
          rw [hmore, decodeLossyFrom_append, ih]

/-- Bytes are a text if and only if nothing of them is lost. -/
theorem utf8_decodeLossy_iff {bytes : List UInt8} :
    utf8 (decodeLossy bytes) = bytes ↔ ∃ cs, bytes = utf8 cs := by
  constructor
  · exact fun h => ⟨decodeLossy bytes, h.symm⟩
  · rintro ⟨cs, rfl⟩
    rw [decodeLossy_utf8]

end Lib
end OrbitOpenEO
