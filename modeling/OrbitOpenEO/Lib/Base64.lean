import OrbitOpenEO.Lib.Utf8

/-!
# Base64

The encoding of bytes with padding: three bytes are four sextets, and what is left over at the
end is filled up.  `sextets` says how the four sextets of a group make up its bytes.
-/

namespace OrbitOpenEO
namespace Lib
namespace Base64

/-- The character of a sextet. -/
def sextetChar (v : Nat) : Char :=
  if v < 26 then Char.ofNat ('A'.toNat + v)
  else if v < 52 then Char.ofNat ('a'.toNat + (v - 26))
  else if v < 62 then Char.ofNat ('0'.toNat + (v - 52))
  else if v = 62 then '+'
  else '/'

/-- The padded encoding. -/
def encode : List UInt8 → List Char
  | a :: b :: c :: rest =>
      sextetChar (a.toNat / 4) :: sextetChar (a.toNat % 4 * 16 + b.toNat / 16) ::
        sextetChar (b.toNat % 16 * 4 + c.toNat / 64) :: sextetChar (c.toNat % 64) :: encode rest
  | [a, b] =>
      [sextetChar (a.toNat / 4), sextetChar (a.toNat % 4 * 16 + b.toNat / 16),
        sextetChar (b.toNat % 16 * 4), '=']
  | [a] => [sextetChar (a.toNat / 4), sextetChar (a.toNat % 4 * 16), '=', '=']
  | [] => []

example : encode [102, 111, 111, 98, 97] = "Zm9vYmE=".toList := by decide

theorem sextetChar_ascii {v : Nat} (hv : v < 64) : (sextetChar v).toNat < 128 := by
  have hall : ∀ v : Fin 64, (sextetChar v).toNat < 128 := by decide
  exact hall ⟨v, hv⟩

/-- Every character of an encoding is ASCII. -/
theorem ascii_of_mem_encode {bytes : List UInt8} {c : Char} (h : c ∈ encode bytes) :
    c.toNat < 128 := by
  have hpad : '='.toNat < 128 := by decide
  have hsize : ∀ a : UInt8, a.toNat < 256 := fun a => a.toNat_lt
  induction bytes using encode.induct with
  | case1 a b d rest ih =>
      have ha := hsize a
      have hb := hsize b
      have hd := hsize d
      simp only [encode, List.mem_cons] at h
      rcases h with rfl | rfl | rfl | rfl | hrest
      · exact sextetChar_ascii (by omega)
      · exact sextetChar_ascii (by omega)
      · exact sextetChar_ascii (by omega)
      · exact sextetChar_ascii (by omega)
      · exact ih hrest
  | case2 a b =>
      have ha := hsize a
      have hb := hsize b
      simp only [encode, List.mem_cons, List.not_mem_nil, or_false] at h
      rcases h with rfl | rfl | rfl | rfl
      · exact sextetChar_ascii (by omega)
      · exact sextetChar_ascii (by omega)
      · exact sextetChar_ascii (by omega)
      · exact hpad
  | case3 a =>
      have ha := hsize a
      simp only [encode, List.mem_cons, List.not_mem_nil, or_false] at h
      rcases h with rfl | rfl | rfl | rfl
      · exact sextetChar_ascii (by omega)
      · exact sextetChar_ascii (by omega)
      · exact hpad
      · exact hpad
  | case4 =>
      cases h

/-- Four sextets put side by side by shifts. -/
def word (v₀ v₁ v₂ v₃ : UInt8) : UInt32 :=
  v₀.toUInt32 <<< 18 ||| v₁.toUInt32 <<< 12 ||| v₂.toUInt32 <<< 6 ||| v₃.toUInt32

theorem shiftLeft_or {a b : Nat} (k : Nat) (hb : b < 2 ^ k) : a <<< k ||| b = a * 2 ^ k + b := by
  rw [← Nat.shiftLeft_add_eq_or_of_lt hb, Nat.shiftLeft_eq]

/-- The sextets are the digits of the word. -/
theorem toNat_word {v₀ v₁ v₂ v₃ : UInt8} (h₀ : v₀.toNat < 64) (h₁ : v₁.toNat < 64)
    (h₂ : v₂.toNat < 64) (h₃ : v₃.toNat < 64) :
    (word v₀ v₁ v₂ v₃).toNat =
      ((v₀.toNat * 64 + v₁.toNat) * 64 + v₂.toNat) * 64 + v₃.toNat := by
  have hshift : ∀ (v : UInt8) (k : UInt32), v.toNat < 64 → k.toNat ≤ 18 →
      (v.toUInt32 <<< k).toNat = v.toNat <<< k.toNat := by
    intro v k hv hk
    have hlt : v.toNat <<< k.toNat < 2 ^ 32 := by
      rw [Nat.shiftLeft_eq]
      calc v.toNat * 2 ^ k.toNat ≤ v.toNat * 2 ^ 18 :=
            Nat.mul_le_mul_left _ (Nat.pow_le_pow_right (by decide) hk)
        _ < 2 ^ 32 := by omega
    rw [UInt32.toNat_shiftLeft, UInt8.toNat_toUInt32, Nat.mod_eq_of_lt (a := k.toNat) (by omega),
      Nat.mod_eq_of_lt hlt]
  have hjoin : ∀ {a b : Nat} (k : Nat), b < 64 →
      a <<< (k + 6) ||| b <<< k = (a * 64 + b) <<< k := by
    intro a b k hb
    rw [Nat.add_comm, Nat.shiftLeft_add, ← Nat.shiftLeft_or_distrib, shiftLeft_or 6 hb]
    rfl
  unfold word
  simp only [UInt32.toNat_or, UInt8.toNat_toUInt32]
  rw [hshift v₀ 18 h₀ (by decide), hshift v₁ 12 h₁ (by decide), hshift v₂ 6 h₂ (by decide)]
  calc v₀.toNat <<< 18 ||| v₁.toNat <<< 12 ||| v₂.toNat <<< 6 ||| v₃.toNat
      = (v₀.toNat * 64 + v₁.toNat) <<< 12 ||| v₂.toNat <<< 6 ||| v₃.toNat := by rw [hjoin 12 h₁]
    _ = ((v₀.toNat * 64 + v₁.toNat) * 64 + v₂.toNat) <<< 6 ||| v₃.toNat := by rw [hjoin 6 h₂]
    _ = ((v₀.toNat * 64 + v₁.toNat) * 64 + v₂.toNat) * 64 + v₃.toNat := shiftLeft_or 6 h₃

/-- The bytes of a word whose sextets spell them. -/
theorem bytes_of_word {w : UInt32} {a b c : UInt8}
    (h : w.toNat = (a.toNat * 256 + b.toNat) * 256 + c.toNat) :
    (w >>> 16).toUInt8 = a ∧ (w >>> 8).toUInt8 = b ∧ w.toUInt8 = c := by
  have ha := a.toNat_lt
  have hb := b.toNat_lt
  have hc := c.toNat_lt
  have h16 : (16 : UInt32).toNat % 32 = 16 := rfl
  have h8 : (8 : UInt32).toNat % 32 = 8 := rfl
  refine ⟨UInt8.toNat_inj.mp ?_, UInt8.toNat_inj.mp ?_, UInt8.toNat_inj.mp ?_⟩
  · rw [UInt32.toNat_toUInt8, UInt32.toNat_shiftRight, h16, Nat.shiftRight_eq_div_pow, h]
    omega
  · rw [UInt32.toNat_toUInt8, UInt32.toNat_shiftRight, h8, Nat.shiftRight_eq_div_pow, h]
    omega
  · rw [UInt32.toNat_toUInt8, h]
    omega

end Base64
end Lib
end OrbitOpenEO
