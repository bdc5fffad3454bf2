import OrbitOpenEO.Credentials
import Mathlib.Tactic.Common

/-!
# The device flow

Clients start the flow and poll for a token, and an operator approves codes, in any
order and by any clock.  Histories are lists of calls, the latest first.

`sessionOf` reads off a history what has become of a device code, and the store agrees
with it (`get_after`).  So a token goes out only for a code that was started, approved
since and has not expired.  A poll leaves the session as it is: the same code is good for
a second token.
-/

namespace OrbitOpenEO

/-- A call of the device flow, with its clock readings and random draws. -/
inductive DeviceCall where
  | start (body : Option Json) (now : Nat) (draws : StartDraws)
  | approve (deviceCode : String)
  | token (body : Json) (polledAt issuedAt : Nat) (drawn : String)

/-- The two stores of the server's state. -/
structure CredentialStores where
  tokens : TokenStore
  deviceCodes : DeviceCodeStore

namespace DeviceFlow

/-- One call: its response, if it comes over HTTP, and the stores after it. -/
def step (s : CredentialStores) : DeviceCall → Option JsonResponse × CredentialStores
  | .start body now draws =>
      let (response, deviceCodes) := credentialsOidcDeviceInit s.deviceCodes body now draws
      (some response, { s with deviceCodes := deviceCodes })
  | .approve deviceCode =>
      (none, { s with deviceCodes := (s.deviceCodes.approve deviceCode).2 })
  | .token body polledAt issuedAt drawn =>
      let (response, tokens) :=
        credentialsOidcDeviceToken s.deviceCodes s.tokens body polledAt issuedAt drawn
      (some response, { s with tokens := tokens })

/-- The stores after a history. -/
def after : List DeviceCall → CredentialStores
  | [] => ⟨.new, .new⟩
  | call :: past => (step (after past) call).2

/-- The response to a call that follows a history. -/
def response (past : List DeviceCall) (call : DeviceCall) : Option JsonResponse :=
  (step (after past) call).1

/-- The device code that a call returns, and the time until which it can be used. -/
def returnedCode (past : List DeviceCall) (call : DeviceCall) : Option (String × Nat) :=
  match call, response past call with
  | .start _ now _, some r =>
      match (r.body.get "device_code").bind Json.asStr, r.body.get "expires_in" with
      | some code, some (.num (.posInt lifetime)) => some (code, now + lifetime)
      | _, _ => none
  | _, _ => none

/-- The device code for which a call gets a token, and the time of the poll. -/
def issuedFor (past : List DeviceCall) (call : DeviceCall) : Option (String × Nat) :=
  match call, response past call with
  | .token body polledAt _ _, some r =>
      if (r.body.get "access_token").isSome then
        some (textField body "device_code" "", polledAt)
      else none
  | _, _ => none

/-- Tokens go out only for codes that were started, approved since and have not
expired, and for each code at most once. -/
structure Safe (history : List DeviceCall) : Prop where
  earned : ∀ {call past code now}, call :: past <:+ history →
    issuedFor past call = some (code, now) →
    ∃ since begin_ before deadline, past = since ++ begin_ :: before ∧
      returnedCode before begin_ = some (code, deadline) ∧
      .approve code ∈ since ∧ now ≤ deadline
  once : ∀ {call between call' past code now now'},
    call :: between ++ call' :: past <:+ history →
    issuedFor past call' = some (code, now') →
    issuedFor (between ++ call' :: past) call ≠ some (code, now)

/-- When a device code was last started, and whether it was approved since. -/
def sessionOf (code : String) : List DeviceCall → Option (Nat × Bool)
  | [] => none
  | .start _ now draws :: past =>
      if code = DeviceCodeStore.codeOf draws then some (now, false) else sessionOf code past
  | .approve deviceCode :: past =>
      (sessionOf code past).map fun s => (s.1, s.2 || code == deviceCode)
  | .token .. :: past => sessionOf code past

/-- A device code that a history leaves approved and not expired. -/
def Redeemable (past : List DeviceCall) (code : String) (now : Nat) : Prop :=
  ∃ issued, sessionOf code past = some (issued, true) ∧ now ≤ issued + 600

/-- A token request of the right grant type that names a code redeemable by then. -/
def Redeems (past : List DeviceCall) (code : String) (now : Nat) : DeviceCall → Prop
  | .token body polledAt _ _ =>
      textField body "grant_type" "" = deviceCodeGrant ∧
        textField body "device_code" "" = code ∧ polledAt = now ∧ Redeemable past code now
  | _ => False

/-- No code is redeemed a second time. -/
def SingleUse (history : List DeviceCall) : Prop :=
  ∀ call between call' past code now now', call :: between ++ call' :: past <:+ history →
    Redeems past code now' call' → ¬ Redeems (between ++ call' :: past) code now call

/-- The part of a stored session that polls look at. -/
def sessionView (s : DeviceSession) : Nat × Bool := (s.issued, s.approved)

/-- The store holds for each code what the history says. -/
theorem get_after (code : String) (past : List DeviceCall) :
    ((after past).deviceCodes.inner.get code).map sessionView = sessionOf code past := by
  induction past with
  | nil => rfl
  | cons call past ih =>
      cases call with
      | start body now draws =>
          simp only [after, step, credentialsOidcDeviceInit, DeviceCodeStore.start,
            BTreeMap.get_insert, sessionOf]
          split
          · rfl
          · exact ih
      | approve deviceCode =>
          simp only [after, step, DeviceCodeStore.approve, sessionOf, ← ih]
          cases hget : (after past).deviceCodes.inner.get deviceCode with
          | none =>
              by_cases hcode : code = deviceCode
              · simp [hcode, hget]
              · cases (after past).deviceCodes.inner.get code <;> simp [hcode, sessionView]
          | some s =>
              by_cases hcode : code = deviceCode
              · simp [hcode, hget, sessionView]
              · rw [BTreeMap.get_insert, if_neg hcode]
                cases (after past).deviceCodes.inner.get code <;> simp [hcode, sessionView]
      | token body polledAt issuedAt drawn => exact ih

/-- Every stored session lives for ten minutes. -/
theorem expiresIn_after {code : String} {s : DeviceSession} (past : List DeviceCall)
    (h : (after past).deviceCodes.inner.get code = some s) : s.expiresIn = 600 := by
  induction past generalizing s with
  | nil => cases h
  | cons call past ih =>
      cases call with
      | start body now draws =>
          simp only [after, step, credentialsOidcDeviceInit, DeviceCodeStore.start,
            BTreeMap.get_insert] at h
          split at h
          · cases h
            rfl
          · exact ih h
      | approve deviceCode =>
          simp only [after, step, DeviceCodeStore.approve] at h
          cases hget : (after past).deviceCodes.inner.get deviceCode with
          | none =>
              rw [hget] at h
              exact ih h
          | some s' =>
              simp only [hget, BTreeMap.get_insert] at h
              split at h
              · cases h
                exact ih (s := s') (‹code = deviceCode› ▸ hget)
              · exact ih h
      | token body polledAt issuedAt drawn => exact ih h

/-- A poll says approved of the redeemable codes. -/
theorem poll_eq_approved_iff (past : List DeviceCall) (now : Nat) (code : String) :
    (after past).deviceCodes.poll now code = .approved ↔ Redeemable past code now := by
  unfold DeviceCodeStore.poll Redeemable
  rw [← get_after]
  cases hget : (after past).deviceCodes.inner.get code with
  | none => simp
  | some s =>
      have hlife := expiresIn_after past hget
      simp only [hlife, Option.map_some, sessionView, Option.some.injEq, Prod.mk.injEq]
      by_cases hold : s.issued + 600 < now
      · simp [hold]
      · have hlive : now ≤ s.issued + 600 := not_lt.mp hold
        cases s.approved <;> simp [hold, hlive]

/-- Who gets a token. -/
theorem issuedFor_eq_some_iff (past : List DeviceCall) (call : DeviceCall) (code : String)
    (now : Nat) : issuedFor past call = some (code, now) ↔ Redeems past code now call := by
  cases call with
  | start body t draws => simp [issuedFor, Redeems]
  | approve deviceCode => simp [issuedFor, Redeems]
  | token body polledAt issuedAt drawn =>
      simp only [issuedFor, Redeems, response, step, credentialsOidcDeviceToken]
      by_cases hgrant : textField body "grant_type" "" = deviceCodeGrant
      · simp only [hgrant, ne_eq, not_true_eq_false, if_false, true_and]
        have hpoll := poll_eq_approved_iff past polledAt (textField body "device_code" "")
        cases hout : (after past).deviceCodes.poll polledAt (textField body "device_code" "") with
        | approved =>
            have hred := hpoll.mp hout
            simp only [Json.get, List.lookup_cons, beq_self_eq_true, Option.isSome_some, if_true,
              Option.some.injEq, Prod.mk.injEq]
            constructor
            · rintro ⟨rfl, rfl⟩
              exact ⟨rfl, rfl, hred⟩
            · rintro ⟨hcode, hnow, -⟩
              exact ⟨hcode, hnow⟩
        | pending =>
            refine iff_of_false (by simp [Json.get, List.lookup_cons]) ?_
            rintro ⟨rfl, rfl, hred⟩
            rw [hpoll.mpr hred] at hout
            cases hout
        | expired =>
            refine iff_of_false (by simp [Json.get, List.lookup_cons]) ?_
            rintro ⟨rfl, rfl, hred⟩
            rw [hpoll.mpr hred] at hout
            cases hout
      · simp [hgrant, Json.get, List.lookup_cons]

/-- The start of a code that the history has a session for. -/
theorem exists_start_of_sessionOf {code : String} {issued : Nat} {approved : Bool} :
    ∀ {past : List DeviceCall}, sessionOf code past = some (issued, approved) →
      ∃ since begin_ before, past = since ++ begin_ :: before ∧
        returnedCode before begin_ = some (code, issued + 600) ∧
        (approved = true → .approve code ∈ since)
  | .start body now draws :: past, h => by
      unfold sessionOf at h
      split at h
      · rename_i hcode
        cases h
        refine ⟨[], .start body issued draws, past, rfl, ?_, Bool.false_ne_true.elim⟩
        rw [hcode]
        rfl
      · obtain ⟨since, begin_, before, rfl, hret, happ⟩ := exists_start_of_sessionOf h
        exact ⟨_ :: since, begin_, before, rfl, hret, fun ha => List.mem_cons_of_mem _ (happ ha)⟩
  | .approve deviceCode :: past, h => by
      obtain ⟨⟨t, a⟩, hs, heq⟩ := Option.map_eq_some_iff.mp h
      obtain ⟨since, begin_, before, rfl, hret, happ⟩ := exists_start_of_sessionOf hs
      cases heq
      refine ⟨_ :: since, begin_, before, rfl, hret, fun ha => ?_⟩
      rcases (Bool.or_eq_true _ _).mp ha with ha | ha
      · exact List.mem_cons_of_mem _ (happ ha)
      · rw [eq_of_beq ha]
        exact List.mem_cons_self
  | .token _ _ _ _ :: past, h => by
      have hpast : sessionOf code past = some (issued, approved) := h
      obtain ⟨since, begin_, before, rfl, hret, happ⟩ := exists_start_of_sessionOf hpast
      exact ⟨_ :: since, begin_, before, rfl, hret, fun ha => List.mem_cons_of_mem _ (happ ha)⟩

/-- Every token that goes out was started, approved and not expired. -/
theorem earned_of_issuedFor {past : List DeviceCall} {call : DeviceCall} {code : String}
    {now : Nat} (h : issuedFor past call = some (code, now)) :
    ∃ since begin_ before deadline, past = since ++ begin_ :: before ∧
      returnedCode before begin_ = some (code, deadline) ∧
      .approve code ∈ since ∧ now ≤ deadline := by
  rw [issuedFor_eq_some_iff] at h
  cases call with
  | start => exact h.elim
  | approve => exact h.elim
  | token =>
      obtain ⟨-, -, -, issued, hsession, hlive⟩ := h
      obtain ⟨since, begin_, before, hpast, hret, happ⟩ := exists_start_of_sessionOf hsession
      exact ⟨since, begin_, before, issued + 600, hpast, hret, happ rfl, hlive⟩

/-- A history is safe exactly when its clients redeem no code twice. -/
theorem safe_iff (history : List DeviceCall) : Safe history ↔ SingleUse history := by
  constructor
  · intro h call between call' past code now now' hsuffix hfirst hsecond
    rw [← issuedFor_eq_some_iff] at hfirst hsecond
    exact h.once hsuffix hfirst hsecond
  · intro h
    refine ⟨fun _ hissued => earned_of_issuedFor hissued, ?_⟩
    intro call between call' past code now now' hsuffix hfirst hsecond
    rw [issuedFor_eq_some_iff] at hfirst hsecond
    exact h call between call' past code now now' hsuffix hfirst hsecond

/-- A token request for a code. -/
def pollFor (code : String) (now : Nat) (drawn : String) : DeviceCall :=
  .token (.obj [("grant_type", .str deviceCodeGrant), ("device_code", .str code)]) now now drawn

/-- A client that asks again gets a second token. -/
theorem two_tokens : ¬ Safe [pollFor "dc-k" 4 "u", pollFor "dc-k" 3 "t", .approve "dc-k",
    .start none 1 ⟨"k", "ABCD", "EFGH"⟩] := by
  intro h
  have hfirst : issuedFor [.approve "dc-k", .start none 1 ⟨"k", "ABCD", "EFGH"⟩]
      (pollFor "dc-k" 3 "t") = some ("dc-k", 3) := by decide
  have hsecond : issuedFor [pollFor "dc-k" 3 "t", .approve "dc-k",
      .start none 1 ⟨"k", "ABCD", "EFGH"⟩] (pollFor "dc-k" 4 "u") = some ("dc-k", 4) := by decide
  have hsuffix : pollFor "dc-k" 4 "u" :: [] ++ pollFor "dc-k" 3 "t" ::
      [.approve "dc-k", .start none 1 ⟨"k", "ABCD", "EFGH"⟩] <:+ _ := List.suffix_refl _
  exact h.once hsuffix hfirst hsecond

end DeviceFlow
end OrbitOpenEO
