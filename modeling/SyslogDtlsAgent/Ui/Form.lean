import SyslogDtlsAgent.Core.Serde

/-!
# The settings form

`fields`, `populate` and `read` of `app.js`, over the inputs of `index.html` as a browser keeps their values,
with the conversion to and from JSON on both ends: an address is its text in there, and what is read is none
where the agent could not take it for a configuration. No section of a configuration that the agent sends is
missing, so of the `??` fallbacks only the one of `expected_server_name` is ever taken.
-/

namespace SyslogDtlsAgent.Ui

/-- White space and line terminators of JavaScript: what `trim` cuts off and `\s` matches. -/
def isBlank (c : Char) : Bool :=
  (9 ≤ c.toNat && c.toNat ≤ 13) || c.toNat == 0x20 || c.toNat == 0xA0 || c.toNat == 0x1680 ||
    (0x2000 ≤ c.toNat && c.toNat ≤ 0x200A) || c.toNat == 0x2028 || c.toNat == 0x2029 || c.toNat == 0x202F ||
    c.toNat == 0x205F || c.toNat == 0x3000 || c.toNat == 0xFEFF

/-- `String.prototype.trim`. -/
def trim (s : String) : String :=
  String.ofList (((s.toList.dropWhile isBlank).reverse.dropWhile isBlank).reverse)

/-- `join(' ')`. -/
def join (words : List String) : String := String.ofList ([' '].intercalate (words.map String.toList))

/-- `split(/\s+/).filter(Boolean)`. -/
def splitWords (s : String) : List String :=
  ((s.toList.splitOnP isBlank).filter fun word => !word.isEmpty).map String.ofList

/-- `Number` of a text of digits, up to where JavaScript has all integers. -/
def number (s : String) : Option Nat :=
  let digits := (trim s).toList
  let value := Nat.ofDigitChars 10 digits 0
  if digits.all Char.isDigit ∧ value < 2 ^ 53 then some value else none

/-! ### Inputs -/

inductive Control where
  /-- Also a password. -/
  | text
  | number
  | select (options : List String)
  deriving DecidableEq

/-- What an input holds after its value has been set. Of the numerals that a number input accepts only whole
numbers occur here. -/
def Control.sanitize : Control → String → String
  | .text, value => String.ofList (value.toList.filter fun c => c != '\n' && c != '\r')
  | .number, value => if value ≠ "" ∧ value.toList.all Char.isDigit then value else ""
  | .select options, value => if value ∈ options then value else ""

/-- The type of each input. -/
def control (id : String) : Control :=
  if id ∈ ["http-port", "listen-port", "max-input", "remote-port", "max-messages", "max-bytes", "datagram-bytes",
      "send-rate", "drain-timeout", "handshake-timeout", "retry-initial", "retry-max"] then .number
  else if id = "oidc-enabled" then .select ["false", "true"]
  else if id = "source-mode" then .select ["any", "allowlist"]
  else .text

/-- The values of the inputs, and the list the script keeps beside them. -/
structure Page where
  value : String → String
  allowedIps : List String

/-- `$(id).value = value`. -/
def Page.set (page : Page) (id value : String) : Page :=
  { page with value := Function.update page.value id ((control id).sanitize value) }

/-! ### The two tables -/

def modeName : SourceMode → String
  | .any => "any"
  | .allowlist => "allowlist"

def modeOf : String → Option SourceMode
  | "any" => some .any
  | "allowlist" => some .allowlist
  | _ => none

def fields : List (String × (Config → String)) :=
  [("oidc-enabled", fun c => toString c.http.oidc.enabled),
    ("oidc-discovery", fun c => c.http.oidc.discoveryUri),
    ("oidc-client-id", fun c => c.http.oidc.clientId),
    ("oidc-client-secret", fun c => c.http.oidc.clientSecret),
    ("oidc-public-url", fun c => c.http.oidc.publicUrl),
    ("oidc-groups-claim", fun c => c.http.oidc.groupsClaim),
    ("oidc-required-group", fun c => c.http.oidc.requiredGroup),
    ("oidc-scopes", fun c => join c.http.oidc.scopes),
    ("http-address", fun c => c.http.address.display),
    ("http-port", fun c => toString c.http.port),
    ("listen-address", fun c => c.listener.address.display),
    ("listen-port", fun c => toString c.listener.port),
    ("max-input", fun c => toString c.listener.maxMessageBytes),
    ("remote-host", fun c => c.remote.host),
    ("remote-port", fun c => toString c.remote.port),
    ("server-name", fun c => c.remote.expectedServerName.getD ""),
    ("client-cert", fun c => c.identity.certificateChain),
    ("client-key", fun c => c.identity.privateKey),
    ("ca-bundle", fun c => c.trust.caBundle),
    ("max-messages", fun c => toString c.queue.maxMessages),
    ("max-bytes", fun c => toString c.queue.maxBytes),
    ("datagram-bytes", fun c => toString c.dtls.datagramBytes),
    ("send-rate", fun c => toString c.dtls.messagesPerSecond),
    ("drain-timeout", fun c => toString c.dtls.shutdownDrainMs),
    ("handshake-timeout", fun c => toString c.dtls.handshakeTimeoutMs),
    ("retry-initial", fun c => toString c.dtls.retryInitialMs),
    ("retry-max", fun c => toString c.dtls.retryMaxMs)]

def populate (c : Config) (page : Page) : Page :=
  let page := fields.foldl (fun page (id, get) => page.set id (get c)) page
  let page := page.set "source-mode" (modeName c.sourceAccess.mode)
  { page with allowedIps := c.sourceAccess.allowedIps.map IpAddr.display }

/-- `a || b` of two texts. -/
def orElse (a b : String) : String := if a = "" then b else a

/-- The `value` of `read`. -/
def Page.text (page : Page) (id : String) : String := trim (page.value id)

/-- The `num` of `read`, as an integer of the type it is for. -/
def Page.num (page : Page) (max : Nat) (id : String) : Option Nat :=
  (number (page.value id)).filter (· ≤ max)

def readOidc (page : Page) : Option Oidc :=
  (Oidc.tryFrom {
    issuerUrl := none
    clientSecretEnv := none
    enabled := page.text "oidc-enabled" == "true"
    discoveryUri := page.text "oidc-discovery"
    clientId := page.text "oidc-client-id"
    clientSecret := page.value "oidc-client-secret"
    publicUrl := page.text "oidc-public-url"
    groupsClaim := orElse (page.text "oidc-groups-claim") "groups"
    requiredGroup := page.text "oidc-required-group"
    scopes := splitWords (page.text "oidc-scopes") }).toOption

def readHttp (page : Page) : Option Http := do
  let address ← parseIpAddr (orElse (page.text "http-address") "127.0.0.1")
  let port ← if page.text "http-port" = "" then some 1080 else page.num Width.u16 "http-port"
  let oidc ← readOidc page
  return { address, port, oidc }

def readSourceAccess (page : Page) : Option SourceAccess := do
  let mode ← modeOf (page.value "source-mode")
  let allowedIps ← page.allowedIps.mapM parseIpAddr
  return { mode, allowedIps }

def readListener (page : Page) : Option Listener := do
  let address ← parseIpAddr (page.text "listen-address")
  let port ← page.num Width.u16 "listen-port"
  let maxMessageBytes ← page.num Width.u64 "max-input"
  return { address, port, maxMessageBytes }

def readRemote (page : Page) : Option Remote := do
  let port ← page.num Width.u16 "remote-port"
  let name := page.text "server-name"
  return {
    host := page.text "remote-host"
    port
    expectedServerName := if name = "" then none else some name }

def readQueue (page : Page) : Option Queue := do
  let maxMessages ← page.num Width.u64 "max-messages"
  let maxBytes ← page.num Width.u64 "max-bytes"
  return { maxMessages, maxBytes }

def readDtls (page : Page) : Option Dtls := do
  let datagramBytes ← page.num Width.u32 "datagram-bytes"
  let messagesPerSecond ← page.num Width.u32 "send-rate"
  let shutdownDrainMs ← page.num Width.u64 "drain-timeout"
  let handshakeTimeoutMs ← page.num Width.u64 "handshake-timeout"
  let retryInitialMs ← page.num Width.u64 "retry-initial"
  let retryMaxMs ← page.num Width.u64 "retry-max"
  return {
    datagramBytes, messagesPerSecond, shutdownDrainMs, handshakeTimeoutMs, retryInitialMs, retryMaxMs }

def read (page : Page) : Option Config := do
  let http ← readHttp page
  let sourceAccess ← readSourceAccess page
  let listener ← readListener page
  let remote ← readRemote page
  let queue ← readQueue page
  let dtls ← readDtls page
  return {
    schemaVersion := 1
    http, sourceAccess, listener, remote
    identity := { certificateChain := page.text "client-cert", privateKey := page.text "client-key" }
    trust := { caBundle := page.text "ca-bundle" }
    queue, dtls }

end SyslogDtlsAgent.Ui
