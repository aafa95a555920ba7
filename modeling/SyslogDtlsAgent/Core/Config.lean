import SyslogDtlsAgent.Core.External
import SyslogDtlsAgent.Core.Net
import SyslogDtlsAgent.Core.Text

/-!
# Configuration

The settings of `config.rs` and `oidc.rs`, their defaults, path resolution and the checks
`Config::validate` makes, in the order it makes them. A check is `reject bad message`.
-/

namespace SyslogDtlsAgent

/-- `return Err(message.into())` when the check fails. -/
def reject (bad : Bool) (message : String) : Except String Unit :=
  if bad then .error message else .ok ()

/-- `Option::ok_or(message)?`. -/
def okOr {α : Type} (value : Option α) (message : String) : Except String α :=
  match value with
  | some a => .ok a
  | none => .error message

@[simp] theorem okOr_eq_ok {α : Type} {value : Option α} {message : String} {a : α} :
    okOr value message = .ok a ↔ value = some a := by
  cases value <;> simp [okOr]

@[simp] theorem reject_eq_ok {bad : Bool} {message : String} {u : Unit} :
    reject bad message = .ok u ↔ bad = false := by
  cases bad <;> simp [reject]

/-! ### OIDC settings -/

structure Oidc where
  enabled : Bool
  discoveryUri : String
  clientId : String
  clientSecret : String
  publicUrl : String
  groupsClaim : String
  requiredGroup : String
  scopes : List String

def Oidc.default : Oidc where
  enabled := false
  discoveryUri := ""
  clientId := ""
  clientSecret := ""
  publicUrl := ""
  groupsClaim := "groups"
  requiredGroup := ""
  scopes := []

/-- HTTP and HTTPS are both supported, including internal providers. -/
def httpUrl (lib : External) (value : String) : Except String Url := do
  let some url := lib.urlParse value | throw "Invalid OIDC URL"
  reject (url.username != "" || url.password.isSome || url.fragment.isSome || url.host.isNone ||
      !(url.scheme == "https" || url.scheme == "http"))
    "OIDC URLs require HTTP or HTTPS, without credentials or fragment"
  return url

/-- A nonempty OAuth scope name. -/
def scopeName (scope : String) : Bool :=
  scope != "" && (asBytes scope).all fun c =>
    c == 0x21 || (0x23 ≤ c && c ≤ 0x5b) || (0x5d ≤ c && c ≤ 0x7e)

def Oidc.validate (lib : External) (oidc : Oidc) : Except String Unit := do
  if !oidc.enabled then return ()
  let _ ← httpUrl lib oidc.discoveryUri
  let origin ← httpUrl lib oidc.publicUrl
  reject (origin.path != "/" || origin.query.isSome)
    "OIDC public URL must be an origin without a path or query"
  reject (Text.trim oidc.clientId == "" || Text.trim oidc.groupsClaim == "" ||
      Text.trim oidc.requiredGroup == "")
    "OIDC requires a client ID, group claim and required group"
  reject (decide (32 < oidc.scopes.length) || oidc.scopes.any (!scopeName ·))
    "OIDC scopes must be nonempty OAuth scope names (at most 32)"

/-! ### The configuration record -/

structure Http where
  oidc : Oidc
  address : IpAddr
  port : Nat

def Http.default : Http where
  oidc := Oidc.default
  address := .v4 0x7f000001#32
  port := 1080

inductive SourceMode where
  | any
  | allowlist
  deriving DecidableEq

structure SourceAccess where
  mode : SourceMode
  allowedIps : List IpAddr

def SourceAccess.default : SourceAccess := ⟨.any, []⟩

structure Listener where
  address : IpAddr
  port : Nat
  maxMessageBytes : Nat

def Listener.default : Listener := ⟨.v4 0x7f000001#32, 1514, 8192⟩

structure Remote where
  host : String
  port : Nat
  expectedServerName : Option String

/-- The only identity provider is `Identity::Pem`. -/
structure Identity where
  certificateChain : String
  privateKey : String

/-- The only trust provider is `Trust::PemCa`. -/
structure Trust where
  caBundle : String

structure Queue where
  maxMessages : Nat
  maxBytes : Nat

def Queue.default : Queue := ⟨10000, 16 * 1024 * 1024⟩

structure Dtls where
  handshakeTimeoutMs : Nat
  retryInitialMs : Nat
  retryMaxMs : Nat
  /-- Maximum UDP payload, including the DTLS record overhead. -/
  datagramBytes : Nat
  messagesPerSecond : Nat
  shutdownDrainMs : Nat

def Dtls.default : Dtls := ⟨10000, 1000, 60000, 1200, 1000, 2000⟩

structure Config where
  schemaVersion : Nat
  listener : Listener
  http : Http
  remote : Remote
  identity : Identity
  trust : Trust
  sourceAccess : SourceAccess
  queue : Queue
  dtls : Dtls

def Config.default : Config where
  schemaVersion := 1
  listener := Listener.default
  http := Http.default
  remote := ⟨"collector.example.com", 6514, none⟩
  identity := ⟨"client.pem", "client-key.pem"⟩
  trust := ⟨"ca.pem"⟩
  sourceAccess := SourceAccess.default
  queue := Queue.default
  dtls := Dtls.default

/-! ### Paths -/

/-- `Path::is_relative` on Unix. -/
def isRelative (path : String) : Bool := !Text.startsWith path "/"

/-- `Path::join` on Unix. -/
def joinPath (base path : String) : String :=
  if !isRelative path then path
  else if base == "" || base.toList.getLast? == some '/' then base ++ path
  else base ++ "/" ++ path

def resolvePath (base path : String) : String :=
  if isRelative path then joinPath base path else path

def Config.resolvePaths (base : String) (config : Config) : Config :=
  { config with
    identity :=
      { certificateChain := resolvePath base config.identity.certificateChain
        privateKey := resolvePath base config.identity.privateKey }
    trust := { caBundle := resolvePath base config.trust.caBundle } }

/-- `Path::parent` on Unix, of a path without `.` components. -/
def parent (path : String) : Option String :=
  match path.toList.reverse.dropWhile (· == '/') with
  | [] => none
  | rest =>
      let front := rest.dropWhile (· != '/')
      match front.dropWhile (· == '/') with
      | [] => if front = [] then some "" else some "/"
      | stripped => some (String.ofList stripped.reverse)

example : parent "/etc/syslog//agent.toml" = some "/etc/syslog" := by decide

/-! ### Validation -/

/-- A label of a DNS name that `normalize_name` refuses. -/
def badLabel (label : String) : Bool :=
  label == "" || decide (63 < Text.len label) || label.toList.head? == some '-' ||
    label.toList.getLast? == some '-' ||
    !label.toList.all fun c => Text.isAsciiAlphanumeric c || c == '-'

def normalizeName (lib : External) (name : String) : Except String String := do
  if let some ip := parseIpAddr name then return ip.display
  let some ascii := lib.domainToAsciiStrict name | throw "Invalid DNS name"
  let name := Text.trimEndMatches ascii '.'
  reject (name == "" || decide (253 < Text.len name) || (Text.split name '.').any badLabel)
    "Expected a hostname or IP address, without scheme or port"
  return Text.toAsciiLowercase name

def Config.serverName (lib : External) (config : Config) : Except String String :=
  normalizeName lib (config.remote.expectedServerName.getD config.remote.host)

/-- `(low..=high).contains(&value)`. -/
def within (low high value : Nat) : Bool := low ≤ value && value ≤ high

def Config.validate (lib : External) (config : Config) : Except String Unit := do
  config.http.oidc.validate lib
  reject (config.schemaVersion != 1) "Unsupported configuration schema version"
  reject (decide (4096 < config.sourceAccess.allowedIps.length))
    "Allowlist supports at most 4096 IP addresses"
  reject (config.listener.port == 0 || config.remote.port == 0 || config.http.port == 0)
    "Ports must be between 1 and 65535"
  let _ ← normalizeName lib config.remote.host
  let _ ← config.serverName lib
  reject (!within 1 16378 config.listener.maxMessageBytes)
    "max_message_bytes must be 1..16378 (space for framing within one record)"
  reject (!within 1 1000000 config.queue.maxMessages || !within 1 1073741824 config.queue.maxBytes)
    "Queue limits must be positive; maximum is 1,000,000 messages / 1 GiB"
  reject (!within 576 16448 config.dtls.datagramBytes) "datagram_bytes must be 576..16448"
  reject (!within 100 120000 config.dtls.handshakeTimeoutMs ||
      !within 100 60000 config.dtls.retryInitialMs ||
      decide (config.dtls.retryMaxMs < config.dtls.retryInitialMs) ||
      decide (300000 < config.dtls.retryMaxMs) ||
      decide (30000 < config.dtls.shutdownDrainMs) ||
      !within 1 100000 config.dtls.messagesPerSecond)
    "Invalid DTLS timeout, retry, rate, or shutdown limits"
  reject (config.identity.certificateChain == "" || config.identity.privateKey == "" ||
      config.trust.caBundle == "")
    "Credential paths cannot be empty"

/-! ### Files -/

/-- `Config::parse`, given the TOML deserializer. -/
def Config.parse (lib : External) (toml : String → Option Config) (text base : String) :
    Except String Config := do
  -- Do not echo TOML input in errors: users may accidentally paste secrets.
  let config ← okOr (toml text) "Invalid TOML or unknown/missing configuration field"
  let config := config.resolvePaths base
  config.validate lib
  return config

/-- `Config::load` from an absolute path, given what reading the file gives. -/
def Config.load (lib : External) (toml : String → Option Config) (path : String)
    (file : Except String String) : Except String Config := do
  let text ← file
  Config.parse lib toml text ((parent path).getD ".")

/-- `Config::to_toml`, given the TOML serializer. -/
def Config.toToml (toml : Config → Option String) (config : Config) : Except String String :=
  okOr (toml config) "Cannot serialize configuration"

/-- How the calls on the file go that `Config::save` makes. -/
structure SaveEffects where
  opened : Bool
  restricted : Bool
  truncated : Bool
  /-- The number of bytes after which `write_all` fails, if it does. -/
  writeFailsAfter : Option Nat

/-- `Config::save`: what the file holds afterwards, if there is one, and the result. Opening creates the file. -/
def Config.save (toml : Config → Option String) (config : Config) (content : Option Bytes) (io : SaveEffects) :
    Option Bytes × Except String Unit :=
  match config.toToml toml with
  | .error message => (content, .error message)
  | .ok text =>
      if !io.opened then (content, .error "Cannot save configuration")
      else
        let content := some (content.getD [])
        if !io.restricted then (content, .error "Cannot restrict configuration permissions")
        else if !io.truncated then (content, .error "Cannot save configuration")
        else
          let bytes := asBytes text
          -- `write_all` returns once everything is written, so it cannot fail any later.
          match io.writeFailsAfter.filter (· < bytes.length) with
          | some n => (some (bytes.take n), .error "Cannot save configuration")
          | none => (some bytes, .ok ())

end SyslogDtlsAgent
