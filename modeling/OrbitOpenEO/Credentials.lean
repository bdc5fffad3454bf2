import OrbitOpenEO.AuthPolicy
import OrbitOpenEO.ProcessIds

/-!
# Issued tokens and device codes

The two stores behind `/credentials`, and the routes that use them.  Both are hash maps
that nothing iterates over.  Clock readings and random draws are arguments; every
operation takes the lock of its store once.
-/

namespace OrbitOpenEO

/-- A response with a JSON body. -/
structure JsonResponse where
  status : Nat
  body : Json

/-- `IssuedToken`. -/
structure IssuedToken where
  accessToken : String
  expiresAt : Nat
deriving DecidableEq

/-- `TokenStore`, without the counter, which no draw depends on. -/
structure TokenStore where
  inner : BTreeMap Nat

namespace TokenStore

/-- `TokenStore::new`. -/
def new : TokenStore := ⟨.empty⟩

/-- `TokenStore::issue` at the time `now` with a freshly drawn token. -/
def issue (store : TokenStore) (now : Nat) (token : String) (ttlSeconds : Nat) :
    IssuedToken × TokenStore :=
  (⟨token, now + ttlSeconds⟩, ⟨store.inner.insert token (now + ttlSeconds)⟩)

/-- `TokenStore::is_valid`. -/
def isValid (store : TokenStore) (now : Nat) (token : String) : Bool :=
  match store.inner.get token with
  | some exp => decide (now < exp)
  | none => false

end TokenStore

/-- `DeviceSession`. -/
structure DeviceSession where
  deviceCode : String
  userCode : String
  expiresIn : Nat
  interval : Nat
  issued : Nat
  approved : Bool
  providerId : String
deriving DecidableEq

/-- `DevicePollOutcome`. -/
inductive DevicePollOutcome where
  | approved
  | pending
  | expired
deriving DecidableEq

/-- The random draws of `DeviceCodeStore::start`. -/
structure StartDraws where
  token : String
  userChunk₁ : String
  userChunk₂ : String
deriving DecidableEq

/-- `DeviceCodeStore`, without the counter. -/
structure DeviceCodeStore where
  inner : BTreeMap DeviceSession

namespace DeviceCodeStore

/-- `DeviceCodeStore::new`. -/
def new : DeviceCodeStore := ⟨.empty⟩

/-- The code that `start` makes of its draws. -/
def codeOf (draws : StartDraws) : String := "dc-" ++ draws.token

/-- `DeviceCodeStore::start`. -/
def start (store : DeviceCodeStore) (now : Nat) (draws : StartDraws) (providerId : String) :
    DeviceSession × DeviceCodeStore :=
  let session : DeviceSession :=
    { deviceCode := codeOf draws
      userCode := draws.userChunk₁ ++ "-" ++ draws.userChunk₂
      expiresIn := 600
      interval := 5
      issued := now
      approved := false
      providerId := providerId }
  (session, ⟨store.inner.insert (codeOf draws) session⟩)

/-- `DeviceCodeStore::poll`. -/
def poll (store : DeviceCodeStore) (now : Nat) (deviceCode : String) : DevicePollOutcome :=
  match store.inner.get deviceCode with
  | none => .expired
  | some s =>
      if s.issued + s.expiresIn < now then .expired
      else if s.approved then .approved
      else .pending

/-- `DeviceCodeStore::approve`. -/
def approve (store : DeviceCodeStore) (deviceCode : String) : Bool × DeviceCodeStore :=
  match store.inner.get deviceCode with
  | some s => (true, ⟨store.inner.insert deviceCode { s with approved := true }⟩)
  | none => (false, store)

end DeviceCodeStore

/-- `as_str` of a field of the body, or a default. -/
def textField (body : Json) (key default : String) : String :=
  ((body.get key).bind Json.asStr).getD default

/-- The test of `credentials_basic`: its `ok`. -/
def basicOk (policy : AuthPolicy) (header : Option String) : Bool :=
  match policy, header.bind fun h => (BasicCredentials.parse h).toOption with
  | .openAccess, _ => true
  | .basic username password, some c => c.matches username password
  | .any _ (some (u, p)), some c => c.matches u p
  | _, _ => false

/-- `credentials_basic`. -/
def credentialsBasic (policy : AuthPolicy) (tokens : TokenStore) (header : Option String)
    (now : Nat) (token : String) : JsonResponse × TokenStore :=
  if !basicOk policy header then
    (⟨401, .obj [("code", .str "AuthenticationRequired"),
      ("message", .str "Basic credentials required")]⟩, tokens)
  else
    let (issued, tokens) := tokens.issue now token 3600
    (⟨200, .obj [("access_token", .str issued.accessToken)]⟩, tokens)

/-- `credentials_oidc_device_init`. -/
def credentialsOidcDeviceInit (deviceCodes : DeviceCodeStore) (body : Option Json) (now : Nat)
    (draws : StartDraws) : JsonResponse × DeviceCodeStore :=
  let providerId := textField (body.getD .null) "provider_id" "default"
  let (session, deviceCodes) := deviceCodes.start now draws providerId
  (⟨200, .obj
    [("device_code", .str session.deviceCode),
     ("user_code", .str session.userCode),
     ("verification_uri", .str "/credentials/oidc/verify"),
     ("verification_uri_complete",
       .str ("/credentials/oidc/verify?user_code=" ++ session.userCode)),
     ("expires_in", .num (.posInt session.expiresIn)),
     ("interval", .num (.posInt session.interval))]⟩, deviceCodes)

/-- The only grant type of `credentials_oidc_device_token`. -/
def deviceCodeGrant : String := "urn:ietf:params:oauth:grant-type:device_code"

/-- `credentials_oidc_device_token`; the poll and the issue read the clock on their own. -/
def credentialsOidcDeviceToken (deviceCodes : DeviceCodeStore) (tokens : TokenStore)
    (body : Json) (polledAt issuedAt : Nat) (token : String) : JsonResponse × TokenStore :=
  if textField body "grant_type" "" ≠ deviceCodeGrant then
    (⟨400, .obj [("error", .str "unsupported_grant_type"),
      ("error_description",
        .str "expected grant_type=urn:ietf:params:oauth:grant-type:device_code")]⟩, tokens)
  else
    match deviceCodes.poll polledAt (textField body "device_code" "") with
    | .approved =>
        let (issued, tokens) := tokens.issue issuedAt token 3600
        (⟨200, .obj [("access_token", .str issued.accessToken), ("token_type", .str "Bearer"),
          ("expires_in", .num (.posInt 3600))]⟩, tokens)
    | .pending => (⟨400, .obj [("error", .str "authorization_pending")]⟩, tokens)
    | .expired => (⟨400, .obj [("error", .str "expired_token")]⟩, tokens)

end OrbitOpenEO
