import OrbitOpenEO.Lib.Utf8
import OrbitOpenEO.UrlPolicy
import Mathlib.Data.List.Basic

/-!
# Credentials and the policy that checks them

`AuthPolicy::check` reads an `Authorization` header as a Bearer token, as Basic
credentials, or as either of the two.  `Authenticates` says which headers are valid
credentials of a scheme; the check accepts these headers and no others.
-/

namespace OrbitOpenEO

open Lib

/-- `constant_time_eq`. -/
def constantTimeEq (a b : List UInt8) : Bool :=
  if a.length ≠ b.length then false
  else (a.zip b).foldl (fun diff p => diff ||| (p.1 ^^^ p.2)) 0 == 0

theorem foldl_diff_eq_zero : ∀ (a b : List UInt8) (diff : UInt8), a.length = b.length →
    ((a.zip b).foldl (fun diff p => diff ||| (p.1 ^^^ p.2)) diff = 0 ↔ diff = 0 ∧ a = b)
  | [], [], diff, _ => by simp
  | x :: a, y :: b, diff, h => by
      have hlen : a.length = b.length := Nat.succ.inj h
      rw [List.zip_cons_cons, List.foldl_cons, foldl_diff_eq_zero a b _ hlen,
        UInt8.or_eq_zero_iff, UInt8.xor_eq_zero_iff, List.cons.injEq, and_assoc]

/-- The comparison is equality. -/
theorem constantTimeEq_iff (a b : List UInt8) : constantTimeEq a b = true ↔ a = b := by
  unfold constantTimeEq
  split
  · rename_i hlen
    simp only [Bool.false_eq_true, false_iff]
    intro h
    exact hlen (congrArg List.length h)
  · rename_i hlen
    rw [beq_iff_eq, foldl_diff_eq_zero a b 0 (not_not.mp hlen)]
    simp

theorem utf8_injective : ∀ {s t : List Char}, utf8 s = utf8 t → s = t
  | [], [], _ => rfl
  | [], c :: t, h => by
      rw [utf8_cons, utf8_nil] at h
      exact absurd (List.append_eq_nil_iff.mp h.symm).1 String.utf8EncodeChar_ne_nil
  | c :: s, [], h => by
      rw [utf8_cons, utf8_nil] at h
      exact absurd (List.append_eq_nil_iff.mp h).1 String.utf8EncodeChar_ne_nil
  | c :: s, d :: t, h => by
      rw [utf8_cons, utf8_cons] at h
      obtain ⟨rfl, hrest⟩ := utf8EncodeChar_append_inj h
      rw [utf8_injective hrest]

/-- `as_bytes`. -/
def asBytes (s : String) : List UInt8 := utf8 s.toList

theorem constantTimeEq_asBytes (s t : String) :
    constantTimeEq (asBytes s) (asBytes t) = true ↔ s = t := by
  rw [constantTimeEq_iff]
  constructor
  · intro h
    exact String.toList_inj.mp (utf8_injective h)
  · rintro rfl
    rfl

/-- `BearerToken`. -/
structure BearerToken where
  raw : String

/-- `BearerError`. -/
inductive BearerError where
  | notBearer

namespace BearerToken

/-- `BearerToken::parse`. -/
def parse (header : String) : Except BearerError BearerToken :=
  match header.toList.dropPrefix? "Bearer ".toList with
  | none => .error .notBearer
  | some token => .ok ⟨String.ofList token⟩

/-- `BearerToken::matches`. -/
def «matches» (b : BearerToken) (expected : String) : Bool :=
  constantTimeEq (asBytes b.raw) (asBytes expected)

theorem matches_iff (b : BearerToken) (expected : String) :
    b.matches expected = true ↔ b.raw = expected := constantTimeEq_asBytes _ _

theorem parse_eq_ok_iff (header : String) (b : BearerToken) :
    parse header = .ok b ↔ header = "Bearer " ++ b.raw := by
  have htext : header = "Bearer " ++ b.raw ↔
      header.toList.dropPrefix? "Bearer ".toList = some b.raw.toList := by
    rw [List.dropPrefix?_eq_some_iff, ← String.toList_inj, String.toList_append]
    constructor
    · intro h
      exact ⟨_, h, BEq.rfl⟩
    · rintro ⟨pre, h, hpre⟩
      rw [h, eq_of_beq hpre]
  rw [htext]
  unfold parse
  cases header.toList.dropPrefix? "Bearer ".toList with
  | none => simp
  | some token =>
      simp only [Except.ok.injEq, Option.some.injEq]
      constructor
      · rintro rfl
        exact String.toList_ofList.symm
      · intro h
        rw [h, String.ofList_toList]

end BearerToken

/-- The alphabet of `b64_decode`. -/
def b64Alphabet : List Char :=
  "ABCDEFGHIJKLMNOPQRSTUVWXYZabcdefghijklmnopqrstuvwxyz0123456789+/".toList

/-- The table `T` of `b64_decode`, with the padding as a zero. -/
def b64Value (b : UInt8) : Option UInt8 :=
  if b.toNat = '='.toNat then some 0
  else (b64Alphabet.findIdx? fun c => c.toNat == b.toNat).map UInt8.ofNat

/-- What `b64_decode` keeps from byte to byte: `out`, the used part of `buf`, `pad`. -/
structure B64State where
  out : List UInt8
  buf : List UInt8
  pad : Nat

/-- One turn of the loop of `b64_decode`. -/
def b64Step (s : B64State) (b : UInt8) : Option B64State :=
  if b.toNat = '\n'.toNat ∨ b.toNat = '\r'.toNat ∨ b.toNat = ' '.toNat then some s
  else
    (b64Value b).map fun v =>
      let pad := if b.toNat = '='.toNat then s.pad + 1 else s.pad
      match s.buf with
      | [b₀, b₁, b₂] =>
          let triple : UInt32 :=
            b₀.toUInt32 <<< 18 ||| b₁.toUInt32 <<< 12 ||| b₂.toUInt32 <<< 6 ||| v.toUInt32
          let first := [(triple >>> 16).toUInt8]
          let second := if pad < 2 then [(triple >>> 8).toUInt8] else []
          let third := if pad < 1 then [triple.toUInt8] else []
          ⟨s.out ++ first ++ second ++ third, [], 0⟩
      | buf => ⟨s.out, buf ++ [v], pad⟩

/-- `b64_decode`. -/
def b64Decode (input : List UInt8) : Option (List UInt8) :=
  match input.foldlM b64Step ⟨[], [], 0⟩ with
  | none => none
  | some s => if s.buf.length ≠ 0 then none else some s.out

/-- `BasicCredentials`. -/
structure BasicCredentials where
  username : String
  password : String
deriving DecidableEq

/-- `BasicError`. -/
inductive BasicError where
  | notBasic
  | badBase64
  | missingColon
  | notUtf8
deriving DecidableEq

namespace BasicCredentials

/-- `BasicCredentials::parse`. -/
def parse (header : String) : Except BasicError BasicCredentials :=
  match header.toList.dropPrefix? "Basic ".toList with
  | none => .error .notBasic
  | some payload =>
      match b64Decode (utf8 payload) with
      | none => .error .badBase64
      | some decoded =>
          match String.fromUTF8? ⟨decoded.toArray⟩ with
          | none => .error .notUtf8
          | some s =>
              match splitOnce [':'] s.toList with
              | none => .error .missingColon
              | some (u, p) => .ok ⟨String.ofList u, String.ofList p⟩

/-- `BasicCredentials::matches`. -/
def «matches» (c : BasicCredentials) (expectedUser expectedPass : String) : Bool :=
  constantTimeEq (asBytes c.username) (asBytes expectedUser) &&
    constantTimeEq (asBytes c.password) (asBytes expectedPass)

theorem matches_iff (c : BasicCredentials) (u p : String) :
    c.matches u p = true ↔ c = ⟨u, p⟩ := by
  obtain ⟨username, password⟩ := c
  simp only [«matches», Bool.and_eq_true, constantTimeEq_asBytes, mk.injEq]

/-- A header that starts as a Bearer token holds no Basic credentials. -/
theorem parse_bearer (token : String) : parse ("Bearer " ++ token) = .error .notBasic := by
  have hnone : ("Bearer " ++ token).toList.dropPrefix? "Basic ".toList = none := by
    rw [String.toList_append]
    rfl
  unfold parse
  rw [hnone]

end BasicCredentials

/-- `AuthPolicy`; `openAccess` is the source's `Open`. -/
inductive AuthPolicy where
  | openAccess
  | bearer (token : String)
  | basic (username password : String)
  | any (bearer : Option String) (basic : Option (String × String))
deriving DecidableEq

/-- `AuthOutcome`. -/
inductive AuthOutcome where
  | openAccess
  | authenticated
  | missing
  | badScheme
  | badCredentials
deriving DecidableEq

namespace AuthPolicy

/-- The arm of `check` for Bearer tokens; `none` when the header is none. -/
def checkBearer (token h : String) : Option AuthOutcome :=
  match BearerToken.parse h with
  | .ok b => some (if b.matches token then .authenticated else .badCredentials)
  | .error _ => none

/-- The arm of `check` for Basic credentials; `none` when the header has none. -/
def checkBasic (username password h : String) : Option AuthOutcome :=
  match BasicCredentials.parse h with
  | .ok c => some (if c.matches username password then .authenticated else .badCredentials)
  | .error _ => none

/-- `AuthPolicy::check`. -/
def check (policy : AuthPolicy) (header : Option String) : AuthOutcome :=
  match policy with
  | openAccess => .openAccess
  | bearer token =>
      match header with
      | none => .missing
      | some h => (checkBearer token h).getD .badScheme
  | basic username password =>
      match header with
      | none => .missing
      | some h => (checkBasic username password h).getD .badScheme
  | any expected expectedBasic =>
      match header with
      | none => .missing
      | some h =>
          ((expected.bind fun tok => checkBearer tok h).or
            (expectedBasic.bind fun up => checkBasic up.1 up.2 h)).getD .badScheme

/-- The token that a policy expects, if it takes Bearer tokens. -/
def expectedToken : AuthPolicy → Option String
  | bearer token => some token
  | any token _ => token
  | _ => none

/-- The user and the password that a policy expects, if it takes Basic credentials. -/
def expectedUser : AuthPolicy → Option (String × String)
  | basic username password => some (username, password)
  | any _ user => user
  | _ => none

/-- The schemes of an `Authorization` header. -/
inductive Scheme where
  | bearer
  | basic
deriving DecidableEq

/-- A header holds the credentials that the policy expects under a scheme. -/
def Authenticates (policy : AuthPolicy) : Scheme → String → Prop
  | .bearer, h => ∃ token, policy.expectedToken = some token ∧ h = "Bearer " ++ token
  | .basic, h => ∃ u p, policy.expectedUser = some (u, p) ∧
      BasicCredentials.parse h = .ok ⟨u, p⟩

theorem checkBearer_eq_none_iff (token h : String) :
    checkBearer token h = none ↔ ∀ t, h ≠ "Bearer " ++ t := by
  unfold checkBearer
  cases hparse : BearerToken.parse h with
  | ok b =>
      have hb := (BearerToken.parse_eq_ok_iff h b).mp hparse
      simp only [reduceCtorEq, false_iff, not_forall, not_not]
      exact ⟨b.raw, hb⟩
  | error e =>
      refine iff_of_true rfl fun t ht => ?_
      rw [(BearerToken.parse_eq_ok_iff h ⟨t⟩).mpr ht] at hparse
      cases hparse

theorem checkBearer_bearer (token t : String) :
    checkBearer token ("Bearer " ++ t) =
      some (if t = token then .authenticated else .badCredentials) := by
  unfold checkBearer
  rw [(BearerToken.parse_eq_ok_iff _ ⟨t⟩).mpr rfl]
  simp only [BearerToken.matches_iff]

theorem checkBasic_eq_authenticated_iff (u p h : String) :
    checkBasic u p h = some .authenticated ↔ BasicCredentials.parse h = .ok ⟨u, p⟩ := by
  unfold checkBasic
  cases BasicCredentials.parse h with
  | ok c =>
      simp only [Option.some.injEq, Except.ok.injEq, ← BasicCredentials.matches_iff]
      split <;> simp [*]
  | error e => simp

theorem checkBasic_bearer (u p t : String) : checkBasic u p ("Bearer " ++ t) = none := by
  unfold checkBasic
  rw [BasicCredentials.parse_bearer]

/-- Only the open policy answers that no credentials were needed. -/
theorem check_ne_openAccess {policy : AuthPolicy} (hpolicy : policy ≠ openAccess)
    (header : Option String) : policy.check header ≠ .openAccess := by
  have hbearer : ∀ token h, checkBearer token h ≠ some .openAccess := by
    intro token h
    unfold checkBearer
    split
    · split <;> simp
    · simp
  have hbasic : ∀ u p h, checkBasic u p h ≠ some .openAccess := by
    intro u p h
    unfold checkBasic
    split
    · split <;> simp
    · simp
  have hgetD : ∀ o : Option AuthOutcome, o ≠ some .openAccess → o.getD .badScheme ≠ .openAccess := by
    intro o
    cases o <;> simp
  cases header with
  | none => cases policy <;> simp [check] at hpolicy ⊢
  | some h =>
      cases policy with
      | openAccess => exact absurd rfl hpolicy
      | bearer token => exact hgetD _ (hbearer token h)
      | basic u p => exact hgetD _ (hbasic u p h)
      | any tok up =>
          refine hgetD _ fun hopen => ?_
          rcases Option.or_eq_some_iff.mp hopen with htok | ⟨-, hup⟩
          · obtain ⟨token, -, htoken⟩ := Option.bind_eq_some_iff.mp htok
            exact hbearer token h htoken
          · obtain ⟨⟨u, p⟩, -, huser⟩ := Option.bind_eq_some_iff.mp hup
            exact hbasic u p h huser

/-- What a policy does with a Bearer token. -/
theorem check_bearer_iff {policy : AuthPolicy} (hpolicy : policy ≠ openAccess) (t : String) :
    policy.check (some ("Bearer " ++ t)) = .authenticated ↔ policy.expectedToken = some t := by
  cases policy with
  | openAccess => exact absurd rfl hpolicy
  | bearer token =>
      simp only [check, checkBearer_bearer, Option.getD_some, expectedToken, Option.some.injEq]
      split <;> simp_all [eq_comm]
  | basic u p => simp [check, checkBasic_bearer, expectedToken]
  | any tok up =>
      cases tok with
      | none => cases up <;> simp [check, checkBasic_bearer, expectedToken]
      | some tok =>
          simp only [check, Option.bind_some, checkBearer_bearer, Option.some_or,
            Option.getD_some, expectedToken, Option.some.injEq]
          split <;> simp_all [eq_comm]

/-- What a policy does with a header that is no Bearer token. -/
theorem check_not_bearer_iff {policy : AuthPolicy} (hpolicy : policy ≠ openAccess) {h : String}
    (hno : ∀ t, h ≠ "Bearer " ++ t) :
    policy.check (some h) = .authenticated ↔ policy.Authenticates .basic h := by
  have hnone : ∀ token, checkBearer token h = none := fun token =>
    (checkBearer_eq_none_iff token h).mpr hno
  have hgetD : ∀ o : Option AuthOutcome,
      o.getD .badScheme = .authenticated ↔ o = some .authenticated := by
    intro o
    cases o <;> simp
  cases policy with
  | openAccess => exact absurd rfl hpolicy
  | bearer token => simp [check, hnone, Authenticates, expectedUser]
  | basic u p =>
      simp only [check, hgetD, checkBasic_eq_authenticated_iff, Authenticates, expectedUser,
        Option.some.injEq, Prod.mk.injEq]
      simp [eq_comm]
  | any tok up =>
      have hskip : (tok.bind fun tok => checkBearer tok h) = none := by
        cases tok <;> simp [hnone]
      simp only [check, hskip, Option.none_or, hgetD, Authenticates, expectedUser]
      cases up with
      | none => simp
      | some up =>
          simp only [Option.bind_some, checkBasic_eq_authenticated_iff, Option.some.injEq]
          simp [Prod.ext_iff]

/-- The check lets through the valid credentials of a scheme, and nothing else. -/
theorem check_eq_authenticated_iff {policy : AuthPolicy} (hpolicy : policy ≠ openAccess)
    (header : Option String) :
    policy.check header = .authenticated ↔
      ∃ h, header = some h ∧ ∃ scheme, policy.Authenticates scheme h := by
  cases header with
  | none => cases policy <;> simp [check] at hpolicy ⊢
  | some h =>
      simp only [Option.some.injEq, exists_eq_left']
      by_cases hbearer : ∃ t, h = "Bearer " ++ t
      · obtain ⟨t, rfl⟩ := hbearer
        rw [check_bearer_iff hpolicy]
        constructor
        · intro ht
          exact ⟨.bearer, t, ht, rfl⟩
        · rintro ⟨scheme, hauth⟩
          cases scheme with
          | bearer =>
              obtain ⟨token, htoken, ht⟩ := hauth
              rwa [(String.append_right_inj _).mp ht]
          | basic =>
              obtain ⟨u, p, _, hparse⟩ := hauth
              rw [BasicCredentials.parse_bearer] at hparse
              cases hparse
      · have hno : ∀ t, h ≠ "Bearer " ++ t := fun t ht => hbearer ⟨t, ht⟩
        rw [check_not_bearer_iff hpolicy hno]
        constructor
        · intro hauth
          exact ⟨.basic, hauth⟩
        · rintro ⟨scheme, hauth⟩
          cases scheme with
          | bearer =>
              obtain ⟨token, _, ht⟩ := hauth
              exact absurd ht (hno token)
          | basic => exact hauth

end AuthPolicy
end OrbitOpenEO
