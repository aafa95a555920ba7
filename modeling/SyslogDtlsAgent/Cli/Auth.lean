import SyslogDtlsAgent.Cli.Groups
import SyslogDtlsAgent.Cli.Http
import SyslogDtlsAgent.Core.Config
import SyslogDtlsAgent.Library.Table

/-!
# Browser logins

`auth.rs` without its debug output. A request comes with the answers the code gets from outside while
it handles it: clock readings, random values, and what the provider and the `openidconnect` crate
make of discovery, exchange and token verification. The three maps of `Auth` are tables, and every
function returns the next `Auth` beside its result.
-/

namespace SyslogDtlsAgent

open Library

/-! ### What comes from outside -/

/-- The fields of the discovery metadata, as the crate parses them. -/
structure Metadata where
  issuer : String
  authorizationEndpoint : String
  tokenEndpoint : Option String
  jwksUri : String

/-- The provider client a login is carried out with. -/
structure Client where
  metadata : Metadata
  clientId : String
  secret : Option String
  redirectUri : String

structure Discovery where
  status : Nat
  /-- The body as JSON, and as metadata. -/
  document : Option Json
  metadata : Option Metadata

/-- The claims of a token whose signature, issuer, audience, nonce and lifetime the crate verified. -/
structure Claims where
  accessTokenHash : Option String
  /-- Every claim the crate does not know itself. -/
  additional : List (String × Json)
  authorizedParty : Option String
  /-- Timestamps in whole seconds; the fractions that a `NumericDate` can have are left out. -/
  issueTime : Int
  expiration : Int
  preferredUsername : Option String
  email : Option String
  subject : String

structure TokenResponse where
  idToken : String
  claims : Claims
  /-- `AccessTokenHash::from_token` for the access token that came along. -/
  accessTokenHash : Except String String

structure Answers where
  /-- `Instant::now()` when the request is taken up, when a callback looks at its flow, and when an
  entry is stored. -/
  entered : Instant
  checked : Instant
  stored : Instant
  /-- `SystemTime::now()`, in seconds since the epoch. -/
  wall : ℚ
  /-- What `new_random` yields for an entry, and for the parameters of a login. -/
  key : String
  state : String
  nonce : String
  pkce : String
  /-- The discovery response, and whether the key set arrives, unless the requests fail. -/
  discovery : Option Discovery
  keySet : Option Unit
  /-- The authorization URL for a client, scopes, state, nonce and verifier. -/
  authorizeUrl : Client → List String → String → String → String → String
  /-- Token exchange and verification for a client, code, nonce and verifier. -/
  exchange : Client → String → String → String → Except String TokenResponse

/-- One request with the answers it meets. -/
structure Exchange where
  request : Request
  answers : Answers

/-! ### State -/

structure Flow where
  logoutEndpoint : Option String
  issuer : String
  client : Client
  state : String
  nonce : String
  pkce : String
  expires : Instant

structure ProviderLogout where
  endpoint : String
  idToken : String

structure Session where
  expires : Instant
  username : String
  providerLogout : Option ProviderLogout

structure PendingLogout where
  expires : Instant
  provider : ProviderLogout

structure Login where
  lifetime : Nat
  username : String
  providerLogout : Option ProviderLogout

structure Auth where
  config : Oidc
  secret : Option String
  origin : String
  authority : String
  secure : Bool
  flows : Table String Flow
  sessions : Table String Session
  logouts : Table String PendingLogout

/-- The `Auth` that `Auth::new` builds for a public URL. -/
def Auth.start (config : Oidc) (url : Url) (authority : String) : Auth where
  config := config
  secret := if config.clientSecret == "" then none else some config.clientSecret
  origin := url.origin
  authority := authority
  secure := url.scheme == "https"
  flows := ∅
  sessions := ∅
  logouts := ∅

/-- What follows the first `://`. -/
def afterScheme : List Char → Option String
  | [] => none
  | c :: rest =>
      if "://".toList.isPrefixOf (c :: rest) then some (String.ofList (rest.drop 2)) else afterScheme rest

/-- `Auth::new`, given whether the HTTPS client can be built. `none` is the `unwrap` on the origin
failing, `some none` a configuration without logins. -/
def Auth.new (lib : External) (config : Oidc) (built : Bool) : Except String (Option (Option Auth)) := do
  config.validate lib
  if !config.enabled then return some none
  let url ← httpUrl lib config.publicUrl
  let some authority := afterScheme url.origin.toList | return none
  reject (!built) "Cannot initialize OIDC HTTPS client"
  return some (some (Auth.start config url authority))

namespace Auth

def validRequest (auth : Auth) (request : Request) : Bool :=
  request.header "Host" == some auth.authority && (request.header "Origin").all (· == auth.origin)

def cookieName (auth : Auth) (kind : String) : String :=
  (if auth.secure then "__Host-" else "") ++ "syslog_" ++ kind

def cookie (auth : Auth) (kind value : String) (age : Nat) : String :=
  auth.cookieName kind ++ "=" ++ value ++ "; Path=/; HttpOnly; SameSite=Lax; Max-Age=" ++ toString age ++
    (if auth.secure then "; Secure" else "")

def prune (auth : Auth) (now : Instant) : Auth :=
  { auth with
    flows := auth.flows.retain fun _ flow => now < flow.expires
    sessions := auth.sessions.retain fun _ session => now < session.expires
    logouts := auth.logouts.retain fun _ logout => now < logout.expires }

/-- The value of the cookie of one kind. -/
def presented (auth : Auth) (kind : String) (request : Request) : Option String :=
  request.cookieValue (auth.cookieName kind)

/-! ### Login -/

/-- `provider_request`: only HTTP and HTTPS URLs are asked. -/
def providerRequest {α : Type} (lib : External) (uri : String) (answer : Option α) : Option α :=
  if (httpUrl lib uri).isOk then answer else none

def beginLogin (lib : External) (auth : Auth) (answers : Answers) :
    Except String (String × String × Flow) := do
  let response ← okOr (providerRequest lib auth.config.discoveryUri answers.discovery) "discovery"
  reject (response.status != 200) "discovery failed"
  let document ← okOr response.document "discovery metadata"
  let logoutEndpoint :=
    ((document.get "end_session_endpoint").bind Json.asStr).filter fun url => (httpUrl lib url).isOk
  let metadata ← okOr response.metadata "discovery metadata"
  let issuer ← httpUrl lib metadata.issuer
  reject issuer.query.isSome "Invalid issuer"
  let _ ← okOr (providerRequest lib metadata.jwksUri answers.keySet) "JWKS response invalid or unavailable"
  let _ ← httpUrl lib metadata.authorizationEndpoint
  let tokenUrl ← okOr metadata.tokenEndpoint "Missing token endpoint"
  let _ ← httpUrl lib tokenUrl
  let redirectUri := auth.origin ++ "/auth/callback"
  reject (lib.urlParse redirectUri).isNone "redirect"
  let client : Client := ⟨metadata, auth.config.clientId, auth.secret, redirectUri⟩
  let scopes := auth.config.scopes.filter (· != "openid")
  return (answers.authorizeUrl client scopes answers.state answers.nonce answers.pkce, answers.key,
    { logoutEndpoint := logoutEndpoint
      issuer := metadata.issuer
      client := client
      state := answers.state
      nonce := answers.nonce
      pkce := answers.pkce
      expires := answers.stored + 300 })

def login (lib : External) (auth : Auth) (x : Exchange) : Auth × Response :=
  if 64 ≤ auth.flows.size then
    (auth, respond 503 "text/plain" (.text "Too many pending logins. Try again later."))
  else
    match beginLogin lib auth x.answers with
    | .ok (url, key, flow) =>
        let flows := auth.flows.forget (auth.presented "flow" x.request)
        ({ auth with flows := flows.insert key flow },
          respondWith 303 "text/plain" (.text "")
            [("Location", url), ("Set-Cookie", auth.cookie "flow" key 300)])
    | .error _ => (auth, loginError 503 "Identity provider is unavailable or misconfigured.")

/-! ### Callback -/

/-- The parameters of a query, unless a name occurs twice. -/
def collectParams (pairs : List (String × String)) (params : Table String String) :
    Except String (Table String String) :=
  match pairs with
  | [] => .ok params
  | (key, value) :: rest =>
      if key ∈ params then .error "Duplicate callback parameter"
      else collectParams rest (params.insert key value)

/-- The first half of `finish_login`: the authorization code, once the callback is the one the flow
waits for. -/
def callbackCode (lib : External) (path : String) (flow : Flow) (now : Instant) : Except String String := do
  let (_, query) ← okOr (Text.splitOnce path '?') "Missing callback"
  let params ← collectParams (lib.formUrlencoded query) ∅
  reject (decide (flow.expires ≤ now) || params.lookup "state" != some flow.state) "Invalid state"
  reject (params.lookup "error").isSome "Provider rejected authorization"
  reject ((params.lookup "iss").any (· != flow.issuer)) "Invalid callback issuer"
  okOr ((params.lookup "code").filter (· != "")) "Missing code"

/-- `SystemTime::now().duration_since(UNIX_EPOCH)` in whole seconds. -/
def epochSeconds (wall : ℚ) : Option Int := if wall < 0 then none else some ⌊wall⌋

/-- A token that names a hash of the access token came along with that token. -/
def checkAccessToken (tokens : TokenResponse) : Except String Unit :=
  match tokens.claims.accessTokenHash with
  | none => return ()
  | some expected => do
      let actual ← tokens.accessTokenHash
      reject (actual != expected) "Invalid access token hash"

/-- The second half of `finish_login`: the login a verified token stands for. -/
def acceptTokens (config : Oidc) (flow : Flow) (tokens : TokenResponse) (wall : ℚ) : Except String Login := do
  let claims := tokens.claims
  checkAccessToken tokens
  let groupValue := claims.additional.lookup config.groupsClaim
  reject (!hasGroup groupValue config.requiredGroup)
    ("Required group missing: " ++ groupCheck groupValue config.requiredGroup)
  let now ← okOr (epochSeconds wall) "clock"
  reject (claims.authorizedParty.any (· != config.clientId) || decide (now + 60 < claims.issueTime))
    "Invalid token claims"
  reject ((claims.additional.lookup "nbf").any fun nbf => nbf.asI64.all fun value => now + 60 < value)
    "Token not yet valid"
  let seconds := (max 0 (min 3600 (claims.expiration - now))).toNat
  reject (seconds == 0) "Expired token"
  return {
    lifetime := seconds
    username := ((claims.preferredUsername.filter (· != "")).orElse fun _ =>
      claims.email.filter (· != "")).getD claims.subject
    providerLogout := flow.logoutEndpoint.map fun endpoint => ⟨endpoint, tokens.idToken⟩ }

def finishLogin (lib : External) (auth : Auth) (path : String) (flow : Flow) (answers : Answers) :
    Except String Login := do
  let code ← callbackCode lib path flow answers.checked
  let tokens ← answers.exchange flow.client code flow.nonce flow.pkce
  acceptTokens auth.config flow tokens answers.wall

def callback (lib : External) (auth : Auth) (x : Exchange) : Auth × Response :=
  -- A state value alone is not sufficient: bind each flow to its initiating browser.
  let key := auth.presented "flow" x.request
  let flow := key.bind auth.flows.lookup
  let auth := { auth with flows := auth.flows.forget key }
  let result : Except String Login := match flow with
    | none => .error "Login expired or not initiated in this browser"
    | some flow => finishLogin lib auth x.request.url flow x.answers
  match result with
  | .ok login =>
      if auth.sessions.size < 128 then
        let sessions := auth.sessions.forget (auth.presented "session" x.request)
        let session : Session := ⟨x.answers.stored + login.lifetime, login.username, login.providerLogout⟩
        ({ auth with sessions := sessions.insert x.answers.key session },
          respondWith 303 "text/plain" (.text "")
            [("Location", "/"), ("Set-Cookie", auth.cookie "session" x.answers.key login.lifetime),
              ("Set-Cookie", auth.cookie "flow" "" 0)])
      else (auth, loginError 503 "Session limit reached. Try again later.")
  | .error _ => (auth, loginError 403
      "Login denied. Check your group membership and the provider configuration, then try again.")

/-! ### Logout -/

def endSession (lib : External) (auth : Auth) (x : Exchange) : Auth × Outcome :=
  let key := auth.presented "logout" x.request
  let logout := key.bind auth.logouts.lookup
  let auth := { auth with logouts := auth.logouts.forget key }
  match logout with
  | none => (auth, .reply (loginError 200
      "You are signed out of this agent. The provider logout request has expired or was already used."))
  | some logout =>
      let provider := logout.provider
      let page := Body.logoutForm provider.endpoint provider.idToken auth.config.clientId
        (auth.origin ++ "/auth/signed-out")
      match httpUrl lib provider.endpoint with
      | .error _ => (auth, .panic)
      | .ok url =>
          (auth, .reply (respondWith 200 "text/html; charset=utf-8" page
            [("Set-Cookie", auth.cookie "logout" "" 0),
              ("Content-Security-Policy",
                "form-action 'self' " ++ url.origin ++ "; frame-ancestors 'none'")]))

/-- The branch of `gate` for `POST /auth/logout`, behind its checks. -/
def signOut (auth : Auth) (x : Exchange) : Auth × Outcome :=
  match auth.presented "session" x.request with
  | none => (auth, .panic)
  | some key =>
      match auth.sessions.lookup key with
      | none => (auth, .panic)
      | some session =>
          let auth := { auth with sessions := auth.sessions.erase key }
          let cookies := [("Set-Cookie", auth.cookie "session" "" 0)]
          match session.providerLogout.filter fun _ => auth.logouts.size < 128 with
          | some provider =>
              let logouts := auth.logouts.forget (auth.presented "logout" x.request)
              let pending : PendingLogout := ⟨x.answers.stored + 60, provider⟩
              ({ auth with logouts := logouts.insert x.answers.key pending },
                .reply (respondWith 200 "application/json"
                  (.json (.object [("redirect", .string "/auth/end-session")]))
                  (cookies ++ [("Set-Cookie", auth.cookie "logout" x.answers.key 60)])))
          | none =>
              (auth, .reply (respondWith 200 "application/json"
                (.json (.object [("redirect", .string "/auth/signed-out")])) cookies))

/-! ### The gate -/

/-- All UI assets and API commands pass through this gate. -/
def gate (lib : External) (auth : Auth) (x : Exchange) : Auth × Outcome :=
  let request := x.request
  let auth := auth.prune x.answers.entered
  let path := request.path
  if request.method = .get ∧ path = "/auth/login" then
    let (auth, response) := auth.login lib x
    (auth, .reply response)
  else if request.method = .get ∧ path = "/auth/callback" then
    let (auth, response) := auth.callback lib x
    (auth, .reply response)
  else if request.method = .get ∧ path = "/auth/end-session" then
    auth.endSession lib x
  else if request.method = .get ∧ path = "/auth/logout.js" then
    (auth, .reply (respond 200 "text/javascript"
      (.text "document.getElementById('provider-logout').submit();")))
  else
    let session := auth.presented "session" request
    let authenticated := session.any fun key => key ∈ auth.sessions
    if path = "/auth/logout" ∧ request.method = .post then
      if request.header "X-Syslog-UI" ≠ some "1" ∨ !authenticated then
        (auth, .reply (respond 403 "text/plain" (.text "Forbidden")))
      else auth.signOut x
    else if request.method = .get ∧ path = "/auth/signed-out" then
      (auth, .reply (loginError 200 "You are signed out of this agent."))
    else if !authenticated then
      if path = "/auth/session" ∨ Text.startsWith request.url "/api/" ∨ request.method ≠ .get then
        (auth, .reply (respond 401 "application/json"
          (.json (.object [("error", .string "Sign in required")]))))
      else
        (auth, .reply (respondWith 303 "text/plain" (.text "") [("Location", "/auth/login")]))
    else if path = "/auth/session" ∧ request.method = .get then
      match session.bind auth.sessions.lookup with
      | some session =>
          (auth, .reply (respond 200 "application/json"
            (.json (.object [("username", .string session.username)]))))
      | none => (auth, .panic)
    else (auth, .forward)

end Auth

end SyslogDtlsAgent
