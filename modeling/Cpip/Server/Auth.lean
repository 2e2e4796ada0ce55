import Cpip.Python.Json

/-!
# Token authentication (`server/auth`, `server/api/auth.py`)

Tokens are made and read by a JWT library.  What the server relies on is `Jose.Exact`: a token
signed with a key is decoded with that key to its claims until they expire, and nothing else is
decoded.  Which strings are signed tokens is left to the library: the same claims may be spelled in
many ways under a valid signature.
-/

namespace Cpip

/-- The claims of a token. -/
abbrev Payload := List (PyKey × PyVal)

/-- The JWT library, for one algorithm: `jwt.encode`, `jwt.decode` (`none` is a `JWTError`), which
strings carry which claims under a signature with which key, and whether claims are valid at a
time. -/
structure Jose where
  encode : Payload → String → String
  decode : String → String → ℚ → Option Payload
  Signed : String → String → Payload → Prop
  Unexpired : Payload → ℚ → Prop

/-- `decode` returns the claims exactly of the unexpired tokens that are signed with the key, and
what `encode` makes of claims carries them. -/
structure Jose.Exact (jose : Jose) : Prop where
  decode_iff : ∀ token key now payload, jose.decode token key now = some payload ↔
    jose.Signed token key payload ∧ jose.Unexpired payload now
  decode_encode : ∀ payload key now found, (PyVal.dict payload).IsJson →
    (jose.decode (jose.encode payload key) key now = some found ↔
      found = payload ∧ jose.Unexpired payload now)

/-- What `server_config` says about tokens. -/
structure AuthConfig where
  debug : Bool
  jwtSecret : String

/-- Why a request is not served: an `HTTPException`, or another exception, answered as 500. -/
inductive RequestError where
  | http (status : ℕ) (detail : String)
  | raised (e : PyExc)
  deriving DecidableEq, Repr

namespace Auth

def accessTokenExpireMinutes : ℕ := 60

def refreshTokenExpireDays : ℕ := 30

variable (jose : Jose) (cfg : AuthConfig)

/-! ## `jwt_handler` -/

/-- `to_encode`: the data with its expiry, which is written in whole seconds, and its type. -/
def claims (data : Payload) (expire : ℚ) (type : String) : Payload :=
  Dict.assignAll data [(.str "exp", .int expire.floor), (.str "type", .str type)]

/-- `create_access_token`, when the time is `now`. -/
def createAccessToken (data : Payload) (expiresDelta : Option ℚ) (now : ℚ) : String :=
  let lifetime :=
    match expiresDelta with
    | some delta => if delta ≠ 0 then delta else accessTokenExpireMinutes * 60
    | none => accessTokenExpireMinutes * 60
  jose.encode (claims data (now + lifetime) "access") cfg.jwtSecret

/-- `create_refresh_token`. -/
def createRefreshToken (data : Payload) (now : ℚ) : String :=
  jose.encode (claims data (now + refreshTokenExpireDays * 86400) "refresh") cfg.jwtSecret

/-- `decode_token`. -/
def decodeToken (token : String) (now : ℚ) : Option Payload := jose.decode token cfg.jwtSecret now

structure TokenPair where
  accessToken : String
  refreshToken : String
  tokenType : String
  expiresIn : ℕ
  deriving DecidableEq, Repr

/-- Whom a token pair is for. -/
structure Identity where
  sub : PyVal
  deviceId : PyVal

/-- The data that both tokens of a pair carry. -/
def Identity.data (i : Identity) : Payload := [(.str "sub", i.sub), (.str "device_id", i.deviceId)]

/-- `create_token_pair`; the two tokens are made one after the other. -/
def createTokenPair (i : Identity) (now later : ℚ) : TokenPair where
  accessToken := createAccessToken jose cfg i.data none now
  refreshToken := createRefreshToken jose cfg i.data later
  tokenType := "bearer"
  expiresIn := accessTokenExpireMinutes * 60

/-! ## `middleware` -/

/-- A user that debug mode makes up. -/
def devUser (sub deviceId : String) : Payload :=
  [(.str "sub", .str sub), (.str "device_id", .str deviceId), (.str "tier", .str "dev")]

/-- The bypass of debug mode. -/
def debugUser (credentials : Option String) : Option Payload :=
  match credentials with
  | some token =>
    if "dev_".toList.isPrefixOf token.toList then
      some (devUser "dev-user" (String.ofList (token.toList.drop 4)))
    else none
  | none => some (devUser "anonymous" "local")

/-- `get_current_user` without the bypass. -/
def checkCredentials (credentials : Option String) (now : ℚ) : Except RequestError Payload :=
  match credentials with
  | none => .error (.http 401 "Not authenticated")
  | some token =>
    match decodeToken jose cfg token now with
    | none => .error (.http 401 "Invalid token")
    | some payload => if payload = [] then .error (.http 401 "Invalid token") else .ok payload

/-- `get_current_user`; `credentials` is the bearer token of the request. -/
def getCurrentUser (credentials : Option String) (now : ℚ) : Except RequestError Payload :=
  match if cfg.debug then debugUser credentials else none with
  | some user => .ok user
  | none => checkCredentials jose cfg credentials now

/-- `require_auth`. -/
def requireAuth (user : Payload) : Except RequestError Payload :=
  if ((PyVal.getStr "sub" user).getD .none).asStr? = some "anonymous" then
    .error (.http 401 "Authentication required")
  else .ok user

/-! ## The endpoints -/

/-- The answer of `login`. -/
structure Login where
  tokens : TokenPair
  deviceId : String

/-- For whom `login` makes tokens; the last two arguments are what `uuid4` supplies. -/
def loginIdentity (deviceId userHex uuid : String) : Identity :=
  ⟨.str ("user_" ++ userHex), .str (if deviceId ≠ "" then deviceId else uuid)⟩

/-- `login`, which accepts any API key. -/
def login (deviceId userHex uuid : String) (now later : ℚ) : Login where
  tokens := createTokenPair jose cfg (loginIdentity deviceId userHex uuid) now later
  deviceId := if deviceId ≠ "" then deviceId else uuid

/-- The answer of `register`. -/
structure Registration where
  tokens : TokenPair
  userId : String
  apiKey : String
  deviceId : String

/-- `register`; the ids and the key are what `uuid4` supplies. -/
def register (userId keyHex deviceId : String) (now later : ℚ) : Registration where
  tokens := createTokenPair jose cfg ⟨.str userId, .str deviceId⟩ now later
  userId := userId
  apiKey := "cpip_" ++ keyHex
  deviceId := deviceId

/-- `refresh`: the token is read at `now`, and the new pair is made after that. -/
def refresh (refreshToken : String) (now access later : ℚ) : Except RequestError TokenPair :=
  match decodeToken jose cfg refreshToken now with
  | none => .error (.http 401 "Invalid refresh token")
  | some payload =>
    if payload = [] ∨ ((PyVal.getStr "type" payload).getD .none).asStr? ≠ some "refresh" then
      .error (.http 401 "Invalid refresh token")
    else
      match PyVal.getStr "sub" payload with
      | none => .error (.raised (.keyError "sub"))
      | some sub =>
        let deviceId := (PyVal.getStr "device_id" payload).getD (.str "")
        .ok (createTokenPair jose cfg ⟨sub, deviceId⟩ access later)

end Auth

end Cpip
