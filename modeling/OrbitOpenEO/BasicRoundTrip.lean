import OrbitOpenEO.AuthPolicy
import OrbitOpenEO.Lib.Base64

/-!
# Basic credentials, there and back

`b64_decode` reads what the padded encoding writes, so a user without a colon and a password come
back from the header that carries them.
-/

namespace OrbitOpenEO

open Lib Base64

section Decoder

/-- The byte of an ASCII character. -/
def asciiByte (c : Char) : UInt8 := UInt8.ofNat c.toNat

theorem utf8_ascii {cs : List Char} (h : ∀ c ∈ cs, c.toNat < 128) :
    utf8 cs = cs.map asciiByte := by
  induction cs with
  | nil =>
      rfl
  | cons c cs ih =>
      obtain ⟨hc, hcs⟩ := List.forall_mem_cons.mp h
      rw [utf8_cons, utf8EncodeChar_ascii hc, ih hcs]
      rfl

/-- What a step does with the value of its byte. -/
def B64State.gather (s : B64State) (v : UInt8) (pad : Nat) : B64State :=
  match s.buf with
  | [b₀, b₁, b₂] =>
      ⟨s.out ++ [(word b₀ b₁ b₂ v >>> 16).toUInt8] ++
          (if pad < 2 then [(word b₀ b₁ b₂ v >>> 8).toUInt8] else []) ++
          (if pad < 1 then [(word b₀ b₁ b₂ v).toUInt8] else []), [], 0⟩
  | buf => ⟨s.out, buf ++ [v], pad⟩

/-- The table knows the characters of the sextets, and none of them is skipped or padding. -/
theorem b64Value_sextetChar {v : Nat} (hv : v < 64) :
    b64Value (asciiByte (sextetChar v)) = some (UInt8.ofNat v) ∧
      ∀ c ∈ ['\n', '\r', ' ', '='], (asciiByte (sextetChar v)).toNat ≠ c.toNat := by
  have hvalue : ∀ v < 64, b64Value (asciiByte (sextetChar v)) = some (UInt8.ofNat v) := by
    decide +kernel
  have hother : ∀ v < 64, (['\n', '\r', ' ', '='].all fun c =>
      (asciiByte (sextetChar v)).toNat != c.toNat) = true := by
    decide +kernel
  refine ⟨hvalue v hv, fun c hc => ?_⟩
  exact bne_iff_ne.mp (List.all_eq_true.mp (hother v hv) c hc)

theorem b64Step_sextet {v : Nat} (hv : v < 64) (s : B64State) :
    b64Step s (asciiByte (sextetChar v)) = some (s.gather (UInt8.ofNat v) s.pad) := by
  obtain ⟨hvalue, hother⟩ := b64Value_sextetChar hv
  have hskip : ¬ ((asciiByte (sextetChar v)).toNat = '\n'.toNat ∨
      (asciiByte (sextetChar v)).toNat = '\r'.toNat ∨
      (asciiByte (sextetChar v)).toNat = ' '.toNat) := by
    simp only [not_or]
    exact ⟨hother _ (by simp), hother _ (by simp), hother _ (by simp)⟩
  unfold b64Step
  rw [if_neg hskip, hvalue, Option.map_some, if_neg (hother '=' (by simp))]
  rfl

theorem b64Step_pad (s : B64State) : b64Step s (asciiByte '=') = some (s.gather 0 (s.pad + 1)) :=
  rfl

/-- The word of the sextets of three bytes. -/
theorem bytes_of_sextets (a b c : UInt8) :
    let w := word (UInt8.ofNat (a.toNat / 4)) (UInt8.ofNat (a.toNat % 4 * 16 + b.toNat / 16))
      (UInt8.ofNat (b.toNat % 16 * 4 + c.toNat / 64)) (UInt8.ofNat (c.toNat % 64))
    (w >>> 16).toUInt8 = a ∧ (w >>> 8).toUInt8 = b ∧ w.toUInt8 = c := by
  have ha := a.toNat_lt
  have hb := b.toNat_lt
  have hc := c.toNat_lt
  have hvalue : ∀ {v : Nat}, v < 64 → (UInt8.ofNat v).toNat = v := fun hv =>
    UInt8.toNat_ofNat_of_lt' (Nat.lt_trans hv (by decide))
  have h₀ : a.toNat / 4 < 64 := by omega
  have h₁ : a.toNat % 4 * 16 + b.toNat / 16 < 64 := by omega
  have h₂ : b.toNat % 16 * 4 + c.toNat / 64 < 64 := by omega
  have h₃ : c.toNat % 64 < 64 := by omega
  refine bytes_of_word ?_
  rw [toNat_word ((hvalue h₀).symm ▸ h₀) ((hvalue h₁).symm ▸ h₁) ((hvalue h₂).symm ▸ h₂)
    ((hvalue h₃).symm ▸ h₃), hvalue h₀, hvalue h₁, hvalue h₂, hvalue h₃]
  omega

/-- The decoder reads an encoding group by group. -/
theorem foldlM_encode (bytes out : List UInt8) :
    ((encode bytes).map asciiByte).foldlM b64Step ⟨out, [], 0⟩ = some ⟨out ++ bytes, [], 0⟩ := by
  have hsize : ∀ a : UInt8, a.toNat < 256 := fun a => a.toNat_lt
  have hzero : UInt8.ofNat 0 = 0 := rfl
  induction bytes using encode.induct generalizing out with
  | case1 a b c rest ih =>
      have ha := hsize a
      have hb := hsize b
      have h₀ : a.toNat / 4 < 64 := by omega
      have h₁ : a.toNat % 4 * 16 + b.toNat / 16 < 64 := by omega
      have h₂ : b.toNat % 16 * 4 + c.toNat / 64 < 64 := by
        have hc := hsize c
        omega
      have h₃ : c.toNat % 64 < 64 := by omega
      obtain ⟨hfirst, hsecond, hthird⟩ := bytes_of_sextets a b c
      rw [encode]
      simp only [List.map_cons, List.foldlM_cons, b64Step_sextet h₀, b64Step_sextet h₁,
        b64Step_sextet h₂, b64Step_sextet h₃, Option.bind_eq_bind, Option.bind_some,
        B64State.gather, List.nil_append, List.cons_append, hfirst, hsecond, hthird]
      rw [ih]
      simp
  | case2 a b =>
      have ha := hsize a
      have hb := hsize b
      have h₀ : a.toNat / 4 < 64 := by omega
      have h₁ : a.toNat % 4 * 16 + b.toNat / 16 < 64 := by omega
      have h₂ : b.toNat % 16 * 4 < 64 := by omega
      obtain ⟨hfirst, hsecond, -⟩ := bytes_of_sextets a b 0
      simp only [UInt8.toNat_zero, Nat.zero_div, Nat.zero_mod, Nat.add_zero, hzero]
        at hfirst hsecond
      rw [encode]
      simp only [List.map_cons, List.map_nil, List.foldlM_cons, List.foldlM_nil,
        b64Step_sextet h₀, b64Step_sextet h₁, b64Step_sextet h₂, b64Step_pad, Option.bind_eq_bind,
        Option.bind_some, B64State.gather, List.nil_append, List.cons_append, hfirst, hsecond]
      simp
  | case3 a =>
      have ha := hsize a
      have h₀ : a.toNat / 4 < 64 := by omega
      have h₁ : a.toNat % 4 * 16 < 64 := by omega
      obtain ⟨hfirst, -, -⟩ := bytes_of_sextets a 0 0
      simp only [UInt8.toNat_zero, Nat.zero_div, Nat.zero_mod, Nat.zero_mul, Nat.add_zero, hzero]
        at hfirst
      rw [encode]
      simp only [List.map_cons, List.map_nil, List.foldlM_cons, List.foldlM_nil,
        b64Step_sextet h₀, b64Step_sextet h₁, b64Step_pad, Option.bind_eq_bind, Option.bind_some,
        B64State.gather, List.nil_append, List.cons_append, hfirst]
      simp
  | case4 =>
      rw [List.append_nil]
      rfl

/-- `b64_decode` undoes the encoding. -/
theorem b64Decode_encode (bytes : List UInt8) : b64Decode (utf8 (encode bytes)) = some bytes := by
  unfold b64Decode
  rw [utf8_ascii fun c hc => ascii_of_mem_encode hc, foldlM_encode]
  rfl

end Decoder

/-- The header that carries a user and a password. -/
def basicHeader (username password : String) : String :=
  "Basic " ++ String.ofList (encode (asBytes (username ++ ":" ++ password)))

/-- The header is read back as the pair it carries. -/
theorem parse_basicHeader {u p : String} (hu : ':' ∉ u.toList) :
    BasicCredentials.parse (basicHeader u p) = .ok ⟨u, p⟩ := by
  have hbegin : (basicHeader u p).toList.dropPrefix? "Basic ".toList =
      some (encode (asBytes (u ++ ":" ++ p))) := by
    rw [List.dropPrefix?_eq_some_iff]
    refine ⟨"Basic ".toList, ?_, BEq.rfl⟩
    rw [basicHeader, String.toList_append]
    exact congrArg _ String.toList_ofList
  have htext : (u ++ ":" ++ p).toList = u.toList ++ ':' :: p.toList := by
    rw [String.toList_append, String.toList_append, List.append_assoc]
    rfl
  have hutf8 : String.fromUTF8? ⟨(asBytes (u ++ ":" ++ p)).toArray⟩ = some (u ++ ":" ++ p) := by
    rw [asBytes, fromUTF8?_utf8, String.ofList_toList]
  unfold BasicCredentials.parse
  rw [hbegin]
  dsimp only
  rw [b64Decode_encode]
  dsimp only
  rw [hutf8]
  dsimp only
  rw [htext, splitOnce_append hu]
  dsimp only
  rw [String.ofList_toList, String.ofList_toList]

/-- The policy takes the headers that decode to its pair. -/
theorem check_basic_iff (u p : String) (header : Option String) :
    (AuthPolicy.basic u p).check header = .authenticated ↔
      ∃ h, header = some h ∧ BasicCredentials.parse h = .ok ⟨u, p⟩ := by
  cases header with
  | none =>
      simp [AuthPolicy.check]
  | some h =>
      have hgetD : ∀ o : Option AuthOutcome,
          o.getD .badScheme = .authenticated ↔ o = some .authenticated := by
        intro o
        cases o <;> simp
      simp [AuthPolicy.check, hgetD, AuthPolicy.checkBasic_eq_authenticated_iff]

/-- Credentials come back from their header, and the policy compares what comes back. -/
theorem basic_credentials_round_trip :
    (∀ u p : String, ':' ∉ u.toList → BasicCredentials.parse (basicHeader u p) = .ok ⟨u, p⟩) ∧
      ∀ (u p : String) (header : Option String),
        (AuthPolicy.basic u p).check header = .authenticated ↔
          ∃ h, header = some h ∧ BasicCredentials.parse h = .ok ⟨u, p⟩ :=
  ⟨fun _ _ hu => parse_basicHeader hu, check_basic_iff⟩

theorem basic_credentials_round_trip_alice :
    BasicCredentials.parse (basicHeader "alice" "won:der") = .ok ⟨"alice", "won:der"⟩ :=
  basic_credentials_round_trip.1 "alice" "won:der" (by decide)

end OrbitOpenEO
