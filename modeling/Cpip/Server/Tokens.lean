import Cpip.Server.Auth

/-!
# Which tokens open which door

Access and refresh tokens share the key and the decoder, so each consumer has to look at the type.
`refresh` does; `get_current_user` does not, so a refresh token opens a protected endpoint until it
expires.
-/

namespace Cpip

namespace Auth

variable {jose : Jose} {cfg : AuthConfig}

/-! ## Decoded tokens -/

theorem decodeToken_eq_some_iff (faithful : jose.Exact) {token : String} {now : ℚ}
    {payload : Payload} : decodeToken jose cfg token now = some payload ↔
      jose.Signed token cfg.jwtSecret payload ∧ jose.Unexpired payload now :=
  faithful.decode_iff token cfg.jwtSecret now payload

/-- A token that the server made is decoded to what was put into it. -/
theorem eq_of_decodeToken_encode (faithful : jose.Exact) {payload found : Payload} {now : ℚ}
    (json : (PyVal.dict payload).IsJson)
    (decoded : decodeToken jose cfg (jose.encode payload cfg.jwtSecret) now = some found) :
    found = payload :=
  ((faithful.decode_encode _ _ _ _ json).1 decoded).1

/-- An unexpired token of the type, signed with the key of the server. -/
def IsToken (jose : Jose) (cfg : AuthConfig) (type token : String) (now : ℚ) : Prop :=
  ∃ payload, jose.Signed token cfg.jwtSecret payload ∧ jose.Unexpired payload now ∧
    PyVal.getStr "type" payload = some (.str type)

theorem isToken_iff (faithful : jose.Exact) {type token : String} {now : ℚ} :
    IsToken jose cfg type token now ↔ ∃ payload, decodeToken jose cfg token now = some payload ∧
      PyVal.getStr "type" payload = some (.str type) := by
  unfold IsToken
  refine exists_congr fun payload => ?_
  rw [decodeToken_eq_some_iff faithful, and_assoc]

/-- Outside debug mode a user is let in with any token that decodes to claims. -/
theorem getCurrentUser_isOk_iff (production : cfg.debug = false) {token : String} {now : ℚ} :
    (∃ user, getCurrentUser jose cfg (some token) now = .ok user) ↔
      ∃ payload, decodeToken jose cfg token now = some payload ∧ payload ≠ [] := by
  simp only [getCurrentUser, production, Bool.false_eq_true, if_false, checkCredentials]
  cases decodeToken jose cfg token now with
  | none => simp
  | some payload =>
    dsimp only
    split_ifs with empty
    · simp [empty]
    · simp [empty]

/-- A new pair is made for a refresh token that has a subject. -/
theorem refresh_eq_ok_iff {token : String} {now access later : ℚ} {pair : TokenPair} :
    refresh jose cfg token now access later = .ok pair ↔
      ∃ payload sub, decodeToken jose cfg token now = some payload ∧
        PyVal.getStr "type" payload = some (.str "refresh") ∧
        PyVal.getStr "sub" payload = some sub ∧
        pair = createTokenPair jose cfg
          ⟨sub, (PyVal.getStr "device_id" payload).getD (.str "")⟩ access later := by
  unfold refresh
  cases decodeToken jose cfg token now with
  | none => simp
  | some payload =>
    have typed : ((PyVal.getStr "type" payload).getD .none).asStr? = some "refresh" ↔
        PyVal.getStr "type" payload = some (.str "refresh") := by
      cases PyVal.getStr "type" payload with
      | none => simp [PyVal.asStr?]
      | some v => simp [PyVal.asStr?_eq_some_iff]
    dsimp only
    split_ifs with wrong
    · simp only [Option.some.injEq, false_iff]
      rintro ⟨_, sub, same, htype, hsub, -⟩
      obtain rfl := same
      rcases wrong with rfl | wrong
      · simp [PyVal.getItem] at hsub
      · exact wrong (typed.2 htype)
    · rw [not_or, not_not, typed] at wrong
      obtain ⟨-, htype⟩ := wrong
      cases hsub : PyVal.getStr "sub" payload with
      | none =>
        refine iff_of_false (fun h => ?_) ?_
        · cases h
        · rintro ⟨_, sub, same, -, hsub', -⟩
          obtain rfl := Option.some.inj same
          cases hsub.symm.trans hsub'
      | some sub =>
        constructor
        · intro h
          exact ⟨payload, sub, rfl, htype, hsub, (Except.ok.inj h).symm⟩
        · rintro ⟨_, sub', same, -, hsub', rfl⟩
          obtain rfl := Option.some.inj same
          obtain rfl := Option.some.inj (hsub.symm.trans hsub')
          rfl

/-! ## Chains of logins and refreshes -/

/-- The token pairs that one client got, the last one first: it logged in or registered, and then
presented refresh tokens of its pairs. -/
inductive Chain (jose : Jose) (cfg : AuthConfig) : Identity → List TokenPair → Prop where
  | login (deviceId userHex uuid : String) (now later : ℚ) :
    Chain jose cfg (loginIdentity deviceId userHex uuid)
      [(Auth.login jose cfg deviceId userHex uuid now later).tokens]
  | register (userId keyHex deviceId : String) (now later : ℚ) :
    Chain jose cfg ⟨.str userId, .str deviceId⟩
      [(Auth.register jose cfg userId keyHex deviceId now later).tokens]
  | refresh {i : Identity} {pairs : List TokenPair} {old new : TokenPair} {now access later : ℚ} :
    Chain jose cfg i pairs → old ∈ pairs →
      Auth.refresh jose cfg old.refreshToken now access later = .ok new →
        Chain jose cfg i (new :: pairs)

theorem claims_eq (i : Identity) (expire : ℚ) (type : String) : claims i.data expire type =
    [(.str "sub", i.sub), (.str "device_id", i.deviceId), (.str "exp", .int expire.floor),
      (.str "type", .str type)] := rfl

theorem getStr_type_claims (i : Identity) (expire : ℚ) (type : String) :
    PyVal.getStr "type" (claims i.data expire type) = some (.str type) := rfl

/-- The claims of a pair for strings are what JSON can represent. -/
theorem isJson_claims {i : Identity} (sub : i.sub.IsJson) (deviceId : i.deviceId.IsJson)
    (expire : ℚ) (type : String) : (PyVal.dict (claims i.data expire type)).IsJson := by
  rw [claims_eq]
  refine (PyVal.everywhere_dict_iff _).2 ⟨⟨by simp, by simp⟩, ?_⟩
  intro e he
  simp only [List.mem_cons, List.not_mem_nil, or_false] at he
  rcases he with rfl | rfl | rfl | rfl
  · exact sub
  · exact deviceId
  · trivial
  · trivial

/-- Every pair along a chain was made for the identity of the first. -/
theorem Chain.made (faithful : jose.Exact) {i : Identity} {pairs : List TokenPair}
    (chain : Chain jose cfg i pairs) : i.sub.IsJson ∧ i.deviceId.IsJson ∧
      ∀ pair ∈ pairs, ∃ now later, pair = createTokenPair jose cfg i now later := by
  induction chain with
  | login deviceId userHex uuid now later =>
    refine ⟨trivial, trivial, fun pair hpair => ?_⟩
    obtain rfl := List.mem_singleton.1 hpair
    exact ⟨now, later, rfl⟩
  | register userId keyHex deviceId now later =>
    refine ⟨trivial, trivial, fun pair hpair => ?_⟩
    obtain rfl := List.mem_singleton.1 hpair
    exact ⟨now, later, rfl⟩
  | @refresh i pairs old new now access later _ member refreshed ih =>
    obtain ⟨sub, deviceId, made⟩ := ih
    refine ⟨sub, deviceId, fun pair hpair => ?_⟩
    rcases List.mem_cons.1 hpair with rfl | hpair
    · obtain ⟨now', later', rfl⟩ := made old member
      obtain ⟨payload, sub', hdecode, -, hsub, rfl⟩ := refresh_eq_ok_iff.1 refreshed
      have json := isJson_claims sub deviceId (later' + refreshTokenExpireDays * 86400) "refresh"
      obtain rfl := eq_of_decodeToken_encode faithful json hdecode
      obtain rfl := Option.some.inj hsub
      exact ⟨access, later, rfl⟩
    · exact made pair hpair

/-- What the tokens of a pair say, whenever they are read. -/
def TokenPair.For (jose : Jose) (cfg : AuthConfig) (i : Identity) (pair : TokenPair) : Prop :=
  ∀ token ∈ [pair.accessToken, pair.refreshToken], ∀ now payload,
    decodeToken jose cfg token now = some payload →
      PyVal.getStr "sub" payload = some i.sub ∧
        PyVal.getStr "device_id" payload = some i.deviceId

theorem for_createTokenPair (faithful : jose.Exact) {i : Identity} (sub : i.sub.IsJson)
    (deviceId : i.deviceId.IsJson) (now later : ℚ) :
    (createTokenPair jose cfg i now later).For jose cfg i := by
  intro token member time payload decoded
  simp only [List.mem_cons, List.not_mem_nil, or_false] at member
  rcases member with rfl | rfl
  · obtain rfl := eq_of_decodeToken_encode faithful (isJson_claims sub deviceId _ _) decoded
    exact ⟨rfl, rfl⟩
  · obtain rfl := eq_of_decodeToken_encode faithful (isJson_claims sub deviceId _ _) decoded
    exact ⟨rfl, rfl⟩

/-! ## Which tokens are accepted -/

/-- `get_current_user` accepts the token exactly when it is an access token, and the refresh
endpoint exactly when it is a refresh token. -/
def AcceptedExactly (jose : Jose) (cfg : AuthConfig) (token : String) (now access later : ℚ) :
    Prop :=
  ((∃ user, getCurrentUser jose cfg (some token) now = .ok user) ↔
      IsToken jose cfg "access" token now) ∧
    ((∃ pair, refresh jose cfg token now access later = .ok pair) ↔
      IsToken jose cfg "refresh" token now)

/-- The token is no unexpired token of the server with claims of another type than access. -/
def Proper (jose : Jose) (cfg : AuthConfig) (token : String) (now : ℚ) : Prop :=
  ∀ payload, jose.Signed token cfg.jwtSecret payload → jose.Unexpired payload now →
    payload = [] ∨ PyVal.getStr "type" payload = some (.str "access")

theorem proper_iff (faithful : jose.Exact) {token : String} {now : ℚ} :
    Proper jose cfg token now ↔ ∀ payload, decodeToken jose cfg token now = some payload →
      payload = [] ∨ PyVal.getStr "type" payload = some (.str "access") := by
  simp only [Proper, decodeToken_eq_some_iff faithful, and_imp]

theorem acceptedExactly_iff (faithful : jose.Exact) (production : cfg.debug = false)
    (token : String) (now access later : ℚ) :
    AcceptedExactly jose cfg token now access later ↔ Proper jose cfg token now := by
  unfold AcceptedExactly
  simp only [proper_iff faithful, isToken_iff faithful, getCurrentUser_isOk_iff production,
    refresh_eq_ok_iff]
  cases hdecode : decodeToken jose cfg token now with
  | none => simp
  | some payload =>
    simp only [Option.some.injEq, exists_eq_left', forall_eq']
    constructor
    · rintro ⟨user, -⟩
      by_cases empty : payload = []
      · exact Or.inl empty
      · exact Or.inr (user.1 empty)
    · rintro (rfl | typed)
      · constructor
        · simp [PyVal.getItem]
        · simp [PyVal.getItem]
      · have given : payload ≠ [] := by
          rintro rfl
          simp [PyVal.getItem] at typed
        constructor
        · exact iff_of_true given typed
        · apply iff_of_false
          · rintro ⟨_, _, _, rfl, refreshes, -⟩
            simp [typed] at refreshes
          · intro refreshes
            simp [typed] at refreshes

/-! ### A library with two tokens -/

/-- The tokens that a library has made: for a login of `user_1` at time 0. -/
def sampleName : Payload → Option String
  | [(.str "sub", .str "user_1"), (.str "device_id", .str "phone"), (.str "exp", .int 3600),
      (.str "type", .str "access")] => some "access"
  | [(.str "sub", .str "user_1"), (.str "device_id", .str "phone"), (.str "exp", .int 2592000),
      (.str "type", .str "refresh")] => some "refresh"
  | _ => none

def samplePayload (name : String) (now : ℚ) : Option Payload :=
  if name = "access" ∧ now ≤ 3600 then
    some [(.str "sub", .str "user_1"), (.str "device_id", .str "phone"), (.str "exp", .int 3600),
      (.str "type", .str "access")]
  else if name = "refresh" ∧ now ≤ 2592000 then
    some [(.str "sub", .str "user_1"), (.str "device_id", .str "phone"), (.str "exp", .int 2592000),
      (.str "type", .str "refresh")]
  else none

/-- A library whose tokens are the key followed by a name for the claims. -/
def sampleJose : Jose where
  encode payload key := key ++ (sampleName payload).getD ""
  decode token key now :=
    if key.toList.isPrefixOf token.toList then
      samplePayload (String.ofList (token.toList.drop key.toList.length)) now
    else none
  Signed token key payload := ∃ name, sampleName payload = some name ∧
    key.toList ++ name.toList = token.toList
  Unexpired payload now := ∃ name, sampleName payload = some name ∧ samplePayload name now = payload

theorem sampleName_of_samplePayload {name : String} {now : ℚ} {payload : Payload}
    (h : samplePayload name now = some payload) : sampleName payload = some name := by
  unfold samplePayload at h
  split_ifs at h with access refresh
  · obtain rfl := Option.some.inj h
    exact congrArg some access.1.symm
  · obtain rfl := Option.some.inj h
    exact congrArg some refresh.1.symm

theorem eq_of_samplePayload {name : String} {now : ℚ} {payload found : Payload}
    (named : sampleName payload = some name) (h : samplePayload name now = some found) :
    found = payload := by
  unfold sampleName at named
  split at named
  · obtain rfl := Option.some.inj named
    simp only [samplePayload, true_and, String.reduceEq, false_and, if_false] at h
    exact (Option.some.inj (Option.ite_none_right_eq_some.1 h).2).symm
  · obtain rfl := Option.some.inj named
    simp only [samplePayload, true_and, String.reduceEq, false_and, if_false] at h
    exact (Option.some.inj (Option.ite_none_right_eq_some.1 h).2).symm
  · cases named

theorem sampleJose_exact : sampleJose.Exact where
  decode_encode payload key now found _ := by
    have decoded : sampleJose.decode (sampleJose.encode payload key) key now =
        samplePayload ((sampleName payload).getD "") now := by
      simp [sampleJose]
    rw [decoded]
    constructor
    · intro h
      cases named : sampleName payload with
      | none =>
        rw [named] at h
        simp [samplePayload] at h
      | some name =>
        rw [named] at h
        obtain rfl := eq_of_samplePayload named h
        exact ⟨rfl, name, named, h⟩
    · rintro ⟨rfl, name, named, found⟩
      rw [named]
      exact found
  decode_iff token key now payload := by
    simp only [sampleJose]
    constructor
    · intro h
      split_ifs at h with signed
      have named := sampleName_of_samplePayload h
      obtain ⟨rest, split⟩ := List.isPrefixOf_iff_prefix.1 signed
      exact ⟨⟨_, named, by simp [← split]⟩, _, named, h⟩
    · rintro ⟨⟨name, named, split⟩, name', named', valid⟩
      obtain rfl := Option.some.inj (named.symm.trans named')
      rw [← split, if_pos (List.isPrefixOf_iff_prefix.2 (List.prefix_append _ _)),
        List.drop_left, String.ofList_toList]
      exact valid

def sampleConfig : AuthConfig := ⟨false, "secret"⟩

/-- The tokens of a login on a phone at time 0. -/
def samplePair : TokenPair := (login sampleJose sampleConfig "phone" "1" "uuid" 0 0).tokens

theorem samplePair_refreshToken : samplePair.refreshToken = "secretrefresh" := by decide +kernel

theorem decodeToken_samplePair :
    decodeToken sampleJose sampleConfig samplePair.refreshToken 7200 =
      some [(.str "sub", .str "user_1"), (.str "device_id", .str "phone"),
        (.str "exp", .int 2592000), (.str "type", .str "refresh")] := by
  have valid : (7200 : ℚ) ≤ 2592000 := by decide +kernel
  have signed : "secret".toList.isPrefixOf "secretrefresh".toList = true := by decide
  have name : String.ofList ("secretrefresh".toList.drop "secret".toList.length) = "refresh" := by
    decide
  rw [samplePair_refreshToken]
  simp only [decodeToken, sampleJose, sampleConfig, signed, name, samplePayload]
  simp [valid]

/-! ### The tokens that are accepted -/

/-- Outside debug mode: the consumers accept exactly the tokens meant for them when the token is
proper.  Along every chain of logins and refreshes, every pair keeps the identity of the first and
no access token yields a pair, but a refresh token opens a protected endpoint until it expires. -/
theorem tokens_accepted_iff (jose : Jose) (faithful : jose.Exact) (cfg : AuthConfig)
    (production : cfg.debug = false) :
    (∀ token now access later,
      AcceptedExactly jose cfg token now access later ↔ Proper jose cfg token now) ∧
    ∀ i pairs, Chain jose cfg i pairs → ∀ pair ∈ pairs, pair.For jose cfg i ∧
      (∀ now access later new, refresh jose cfg pair.accessToken now access later ≠ .ok new) ∧
      ∀ now, (∃ user, getCurrentUser jose cfg (some pair.refreshToken) now = .ok user) ↔
        IsToken jose cfg "refresh" pair.refreshToken now := by
  refine ⟨acceptedExactly_iff faithful production, fun i pairs chain pair member => ?_⟩
  obtain ⟨sub, deviceId, made⟩ := chain.made faithful
  obtain ⟨made, later, rfl⟩ := made pair member
  refine ⟨for_createTokenPair faithful sub deviceId made later, ?_, ?_⟩
  · intro now access later new refreshed
    obtain ⟨payload, _, decoded, typed, -⟩ := refresh_eq_ok_iff.1 refreshed
    obtain rfl := eq_of_decodeToken_encode faithful (isJson_claims sub deviceId _ _) decoded
    have wrong := (getStr_type_claims i _ "access").symm.trans typed
    simp at wrong
  · intro now
    rw [getCurrentUser_isOk_iff production, isToken_iff faithful]
    refine exists_congr fun payload => and_congr_right fun decoded => ?_
    obtain rfl := eq_of_decodeToken_encode faithful (isJson_claims sub deviceId _ _) decoded
    exact iff_of_true (by rw [claims_eq]; simp) (getStr_type_claims i _ "refresh")

theorem tokens_accepted_iff_phone :
    (AcceptedExactly sampleJose sampleConfig samplePair.accessToken 60 60 60 ↔
      Proper sampleJose sampleConfig samplePair.accessToken 60) ∧
    samplePair.For sampleJose sampleConfig (loginIdentity "phone" "1" "uuid") := by
  have spec := tokens_accepted_iff sampleJose sampleJose_exact sampleConfig rfl
  exact ⟨spec.1 _ _ _ _, (spec.2 _ _ (Chain.login "phone" "1" "uuid" 0 0) _
    (List.mem_singleton_self _)).1⟩

/-- The refresh token of a login is accepted where only an access token should be. -/
theorem refresh_token_authorises : sampleJose.Exact ∧ sampleConfig.debug = false ∧
    ¬ AcceptedExactly sampleJose sampleConfig samplePair.refreshToken 7200 7200 7200 := by
  refine ⟨sampleJose_exact, rfl, fun accepted => ?_⟩
  have authorised := (getCurrentUser_isOk_iff rfl).2 ⟨_, decodeToken_samplePair, nofun⟩
  obtain ⟨payload, decoded, typed⟩ := (isToken_iff sampleJose_exact).1 (accepted.1.1 authorised)
  obtain rfl := Option.some.inj (decodeToken_samplePair.symm.trans decoded)
  simp [PyVal.getStr_cons] at typed

end Auth

end Cpip
