import OrbitOpenEO.DeviceFlow
import OrbitOpenEO.Enforcement

/-!
# Tokens handed out and tokens accepted

A server with its auth layer in front of the `/credentials` routes.  Histories are lists
of what happens to it, the latest first.

The token store keeps what the routes hand out (`get_tokens_after`), but the layer asks
the policy only.  So a protected request gets through with the configured token, and an
issued token is worth something only if it happens to be that one.
-/

namespace OrbitOpenEO
namespace IssuedTokens

/-- The clock readings and random draws of a request. -/
structure Readings where
  now : Nat
  polledAt : Nat
  issuedAt : Nat
  token : String
  start : StartDraws

/-- What happens to the server. -/
inductive Action where
  | request (req : HttpRequest) (body : Option Json) (env : Readings)
  | approve (deviceCode : String)

/-- What becomes of it; `handled none` leaves the response of other handlers open. -/
inductive Outcome where
  | refused (response : JsonResponse)
  | handled (response : Option JsonResponse)
  | approved

/-- The handlers that touch the stores. -/
inductive Endpoint where
  | credentialsBasic
  | deviceInit
  | deviceToken
  | other

/-- The routes of `credentials.rs`. -/
def endpoint (req : HttpRequest) : Endpoint :=
  match req.matchedPath, req.method with
  | some "/credentials/basic", "GET" => .credentialsBasic
  | some "/credentials/basic", "HEAD" => .credentialsBasic
  | some "/credentials/oidc", "POST" => .deviceInit
  | some "/credentials/oidc/token", "POST" => .deviceToken
  | _, _ => .other

/-- The handler of a request that has passed the layer.  Without a JSON body the token
route is not entered. -/
def handle (policy : AuthPolicy) (s : CredentialStores) (req : HttpRequest) (body : Option Json)
    (env : Readings) : Option JsonResponse × CredentialStores :=
  match endpoint req, body with
  | .credentialsBasic, _ =>
      let (response, tokens) :=
        credentialsBasic policy s.tokens req.header env.issuedAt env.token
      (some response, { s with tokens := tokens })
  | .deviceInit, body =>
      let (response, deviceCodes) :=
        credentialsOidcDeviceInit s.deviceCodes body env.issuedAt env.start
      (some response, { s with deviceCodes := deviceCodes })
  | .deviceToken, some body =>
      let (response, tokens) :=
        credentialsOidcDeviceToken s.deviceCodes s.tokens body env.polledAt env.issuedAt env.token
      (some response, { s with tokens := tokens })
  | .deviceToken, none => (none, s)
  | .other, _ => (none, s)

section Server

variable (routes : RouteSecurityMap) (policy : AuthPolicy)

/-- One request or approval. -/
def step (s : CredentialStores) : Action → Outcome × CredentialStores
  | .request req body env =>
      match enforce routes policy req with
      | .error response => (.refused response, s)
      | .ok () =>
          let (response, s) := handle policy s req body env
          (.handled response, s)
  | .approve deviceCode =>
      (.approved, { s with deviceCodes := (s.deviceCodes.approve deviceCode).2 })

/-- The stores after a history. -/
def after : List Action → CredentialStores
  | [] => ⟨.new, .new⟩
  | action :: past => (step routes policy (after past) action).2

/-- What becomes of an action that follows a history. -/
def outcome (past : List Action) (action : Action) : Outcome :=
  (step routes policy (after routes policy past) action).1

/-- The token in a response. -/
def tokenOf (response : JsonResponse) : Option String :=
  (response.body.get "access_token").bind Json.asStr

/-- The token in the response to an action. -/
def issued (past : List Action) (action : Action) : Option IssuedToken :=
  match action, outcome routes policy past action with
  | .request _ _ env, .handled (some response) =>
      (tokenOf response).map fun token => ⟨token, env.issuedAt + 3600⟩
  | _, _ => none

/-- A token that was handed out in a history and has not expired. -/
def Live (history : List Action) (token : String) (now : Nat) : Prop :=
  ∃ action past expiresAt, action :: past <:+ history ∧
    issued routes policy past action = some ⟨token, expiresAt⟩ ∧ now < expiresAt

/-- A request that gets to its handler. -/
def Accepted (past : List Action) (action : Action) : Prop :=
  ∃ response, outcome routes policy past action = .handled response

/-- A protected request with a Bearer token is accepted if the token was handed out and
has not expired or is the configured one, and refused otherwise. -/
def Honoured (history : List Action) : Prop :=
  ∀ req body env past token, .request req body env :: past <:+ history → Gated routes req →
    req.header = some ("Bearer " ++ token) →
    (Accepted routes policy past (.request req body env) ↔
      Live routes policy past token env.now ∨ policy.expectedToken = some token)

/-- No protected request comes with a token that was handed out and has not expired,
unless that is the configured one. -/
def OnlyConfigured (history : List Action) : Prop :=
  ∀ req body env past token, .request req body env :: past <:+ history → Gated routes req →
    req.header = some ("Bearer " ++ token) →
    Live routes policy past token env.now → policy.expectedToken = some token

variable {routes policy}

theorem accepted_iff {req : HttpRequest} {body : Option Json} {env : Readings}
    (past : List Action) :
    Accepted routes policy past (.request req body env) ↔ enforce routes policy req = .ok () := by
  cases h : enforce routes policy req with
  | error response => simp [Accepted, outcome, step, h]
  | ok u => simp [Accepted, outcome, step, h]

/-- A protected request gets through with the configured token, whatever was issued. -/
theorem accepted_bearer_iff (hpolicy : policy ≠ .openAccess) {req : HttpRequest}
    {body : Option Json} {env : Readings} {token : String} (past : List Action)
    (hgated : Gated routes req) (hheader : req.header = some ("Bearer " ++ token)) :
    Accepted routes policy past (.request req body env) ↔ policy.expectedToken = some token := by
  rw [accepted_iff, enforce_eq_ok_iff hpolicy, hheader, AuthPolicy.check_bearer_iff hpolicy]
  exact or_iff_right (not_not.mpr hgated)

/-- What was issued makes no difference, so it may not be what a client relies on. -/
theorem honoured_iff (hpolicy : policy ≠ .openAccess) (history : List Action) :
    Honoured routes policy history ↔ OnlyConfigured routes policy history := by
  refine forall_congr' fun req => forall_congr' fun body => forall_congr' fun env =>
    forall_congr' fun past => forall_congr' fun token => forall_congr' fun _ =>
    forall_congr' fun hgated => forall_congr' fun hheader => ?_
  rw [accepted_bearer_iff hpolicy past hgated hheader]
  constructor
  · intro h hlive
    exact h.mpr (.inl hlive)
  · intro h
    exact ⟨.inr, fun hor => hor.elim h id⟩

/-- When the last handing out of a token expires. -/
def lastExpiry (routes : RouteSecurityMap) (policy : AuthPolicy) (token : String) :
    List Action → Option Nat
  | [] => none
  | action :: past =>
      match issued routes policy past action with
      | some i =>
          if token = i.accessToken then some i.expiresAt else lastExpiry routes policy token past
      | none => lastExpiry routes policy token past

/-- A store has taken up the token of a response, and is otherwise as it was. -/
def Records (before : TokenStore) (issuedAt : Nat) (response : Option JsonResponse)
    (after : TokenStore) : Prop :=
  ∀ token, after.inner.get token =
    match response.bind tokenOf with
    | some t => if token = t then some (issuedAt + 3600) else before.inner.get token
    | none => before.inner.get token

theorem records_credentialsBasic (tokens : TokenStore) (header : Option String) (now : Nat)
    (drawn : String) :
    Records tokens now (credentialsBasic policy tokens header now drawn).1
      (credentialsBasic policy tokens header now drawn).2 := by
  intro token
  unfold credentialsBasic
  split
  · rfl
  · exact BTreeMap.get_insert _ _ _ _

theorem records_credentialsOidcDeviceToken (deviceCodes : DeviceCodeStore) (tokens : TokenStore)
    (body : Json) (polledAt issuedAt : Nat) (drawn : String) :
    Records tokens issuedAt
      (credentialsOidcDeviceToken deviceCodes tokens body polledAt issuedAt drawn).1
      (credentialsOidcDeviceToken deviceCodes tokens body polledAt issuedAt drawn).2 := by
  intro token
  unfold credentialsOidcDeviceToken
  split
  · rfl
  · split
    · exact BTreeMap.get_insert _ _ _ _
    · rfl
    · rfl

/-- Every token that a handler puts into the store is in its response. -/
theorem records_handle (s : CredentialStores) (req : HttpRequest) (body : Option Json)
    (env : Readings) :
    Records s.tokens env.issuedAt (handle policy s req body env).1
      (handle policy s req body env).2.tokens := by
  unfold handle
  split
  · exact records_credentialsBasic _ _ _ _
  · exact fun _ => rfl
  · exact records_credentialsOidcDeviceToken _ _ _ _ _ _
  · exact fun _ => rfl
  · exact fun _ => rfl

/-- The store knows each token by the last time that it was handed out. -/
theorem get_tokens_after (token : String) (history : List Action) :
    (after routes policy history).tokens.inner.get token =
      lastExpiry routes policy token history := by
  induction history with
  | nil => rfl
  | cons action past ih =>
      cases action with
      | approve deviceCode => exact ih
      | request req body env =>
          cases henforce : enforce routes policy req with
          | error response =>
              simp only [after, step, henforce, lastExpiry, issued, outcome]
              exact ih
          | ok u =>
              have hrec : Records (after routes policy past).tokens env.issuedAt
                  (handle policy (after routes policy past) req body env).1
                  (handle policy (after routes policy past) req body env).2.tokens :=
                records_handle _ _ _ _
              simp only [after, step, henforce, lastExpiry, issued, outcome]
              rw [hrec token, ih]
              cases (handle policy (after routes policy past) req body env).1 with
              | none => rfl
              | some response =>
                  simp only [Option.bind_some]
                  cases tokenOf response with
                  | none => rfl
                  | some t => rfl

theorem live_of_lastExpiry {token : String} {now expiresAt : Nat} (hnow : now < expiresAt) :
    ∀ {history : List Action}, lastExpiry routes policy token history = some expiresAt →
      Live routes policy history token now
  | action :: past, h => by
      have hpast : lastExpiry routes policy token past = some expiresAt →
          Live routes policy (action :: past) token now := by
        intro h
        obtain ⟨a, p, e, hsuffix, hissued, hlive⟩ := live_of_lastExpiry hnow h
        exact ⟨a, p, e, hsuffix.trans (List.suffix_cons _ _), hissued, hlive⟩
      unfold lastExpiry at h
      split at h
      · rename_i i hissued
        split at h
        · rename_i htoken
          cases h
          exact ⟨action, past, i.expiresAt, List.suffix_refl _, htoken ▸ hissued, hnow⟩
        · exact hpast h
      · exact hpast h

/-- A token that the store calls valid is one that was handed out and has not expired. -/
theorem live_of_isValid {history : List Action} {token : String} {now : Nat}
    (h : (after routes policy history).tokens.isValid now token = true) :
    Live routes policy history token now := by
  unfold TokenStore.isValid at h
  rw [get_tokens_after] at h
  split at h
  · rename_i expiresAt hexp
    exact live_of_lastExpiry (of_decide_eq_true h) hexp
  · cases h

end Server

/-- The readings of a request at a time, with a draw for every purpose. -/
def readingsAt (now : Nat) (drawn : String) : Readings :=
  ⟨now, now, now, drawn, ⟨drawn, "ABCD", "EFGH"⟩⟩

/-- A client goes through the device flow. -/
def deviceFlowHistory : List Action :=
  [.request ⟨"POST", some "/credentials/oidc/token", []⟩
     (some (.obj [("grant_type", .str deviceCodeGrant), ("device_code", .str "dc-k")]))
     (readingsAt 12 "t1"),
   .approve "dc-k",
   .request ⟨"POST", some "/credentials/oidc", []⟩ none (readingsAt 11 "k")]

/-- A request with a Bearer token to a protected route. -/
def jobsRequest (token : String) : Action :=
  .request (requestWith "GET" "/jobs" ("Bearer " ++ token)) none (readingsAt 13 "")

theorem get_sampleMap_jobs : sampleMap.get "GET" "/jobs" = some ⟨[["Bearer"]]⟩ := by decide

theorem gated_jobs (header : String) : Gated sampleMap (requestWith "GET" "/jobs" header) :=
  ⟨"/jobs", ⟨[["Bearer"]]⟩, rfl, get_sampleMap_jobs, rfl⟩

/-- The configured token works, also after a token was issued. -/
theorem honoured_configured :
    Honoured sampleMap (.bearer "s3cret") (jobsRequest "s3cret" :: deviceFlowHistory) := by
  refine (honoured_iff (by decide) _).mpr ?_
  intro req body env past token hsuffix _ hheader _
  simp only [jobsRequest, deviceFlowHistory, List.suffix_cons_iff, List.cons.injEq,
    Action.request.injEq, List.suffix_nil, reduceCtorEq, false_and, or_false, false_or] at hsuffix
  rcases hsuffix with ⟨⟨rfl, -⟩, -⟩ | ⟨⟨rfl, -⟩, -⟩ | ⟨⟨rfl, -⟩, -⟩
  · have htext : "Bearer s3cret" = "Bearer " ++ token := Option.some.inj hheader
    rw [show "Bearer s3cret" = "Bearer " ++ "s3cret" by decide] at htext
    exact congrArg some ((String.append_right_inj _).mp htext)
  · cases hheader
  · cases hheader

/-- The token of the device flow does not. -/
theorem deviceFlow_token_refused :
    ¬ Honoured sampleMap (.bearer "s3cret") (jobsRequest "t1" :: deviceFlowHistory) := by
  intro h
  have haccepted := (h _ _ _ _ "t1" (List.suffix_refl _) (gated_jobs _) (by decide)).mpr
    (.inl ⟨_, _, _, List.suffix_refl _, rfl, by decide⟩)
  obtain ⟨response, hresponse⟩ := haccepted
  cases hresponse

end IssuedTokens
end OrbitOpenEO
