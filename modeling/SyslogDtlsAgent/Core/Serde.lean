import SyslogDtlsAgent.Core.Config
import SyslogDtlsAgent.Library.Toml

/-!
# The configuration as a document

What `Serialize` and `Deserialize` derive for the settings of `config.rs` and `oidc.rs`, and the conversion
the OIDC section is read through. A field that is `None` is not written. A reader of settings takes a table
and one of an enumeration a string, as they are written; the other forms that derived readers take, an array
of the fields in order and a table with one entry for a variant, are left out. The widths are those of the
integer types.
-/

namespace SyslogDtlsAgent

open Library Toml

namespace Width

def u16 : Nat := 65535

def u32 : Nat := 4294967295

/-- Also that of `usize`. -/
def u64 : Nat := 18446744073709551615

end Width

def IpAddr.serialize (ip : IpAddr) : Toml := .string ip.display

def IpAddr.deserialize (value : Toml) : Option IpAddr := value.asString.bind parseIpAddr

/-! ### OIDC settings -/

def Oidc.serialize (oidc : Oidc) : Toml :=
  .table
    [("client_id", .string oidc.clientId),
      ("client_secret", .string oidc.clientSecret),
      ("discovery_uri", .string oidc.discoveryUri),
      ("enabled", .boolean oidc.enabled),
      ("groups_claim", .string oidc.groupsClaim),
      ("public_url", .string oidc.publicUrl),
      ("required_group", .string oidc.requiredGroup),
      ("scopes", .array (oidc.scopes.map .string))]

/-- The section as it is read: two fields of older versions beside those of today. -/
structure OidcInput where
  issuerUrl : Option String
  clientSecretEnv : Option String
  enabled : Bool
  discoveryUri : String
  clientId : String
  clientSecret : String
  publicUrl : String
  groupsClaim : String
  requiredGroup : String
  scopes : List String

def OidcInput.default : OidcInput where
  issuerUrl := none
  clientSecretEnv := none
  enabled := Oidc.default.enabled
  discoveryUri := Oidc.default.discoveryUri
  clientId := Oidc.default.clientId
  clientSecret := Oidc.default.clientSecret
  publicUrl := Oidc.default.publicUrl
  groupsClaim := Oidc.default.groupsClaim
  requiredGroup := Oidc.default.requiredGroup
  scopes := Oidc.default.scopes

def OidcInput.deserialize (value : Toml) : Option OidcInput := do
  let entries ← value.fields
    ["issuer_url", "client_secret_env", "enabled", "discovery_uri", "client_id", "client_secret", "public_url",
      "groups_claim", "required_group", "scopes"]
  let missing := OidcInput.default
  return {
    issuerUrl := ← optionalField entries "issuer_url" asString
    clientSecretEnv := ← optionalField entries "client_secret_env" asString
    enabled := ← field entries "enabled" asBool missing.enabled
    discoveryUri := ← field entries "discovery_uri" asString missing.discoveryUri
    clientId := ← field entries "client_id" asString missing.clientId
    clientSecret := ← field entries "client_secret" asString missing.clientSecret
    publicUrl := ← field entries "public_url" asString missing.publicUrl
    groupsClaim := ← field entries "groups_claim" asString missing.groupsClaim
    requiredGroup := ← field entries "required_group" asString missing.requiredGroup
    scopes := ← field entries "scopes" (asList asString) missing.scopes }

/-- `TryFrom<OidcInput> for Oidc`. -/
def Oidc.tryFrom (value : OidcInput) : Except String Oidc := do
  reject (value.enabled && value.clientSecret == "" && value.clientSecretEnv.any (· != ""))
    "Replace client_secret_env with client_secret in the OIDC configuration"
  let discoveryUri :=
    if value.discoveryUri == "" then
      (value.issuerUrl.map fun issuer =>
        if issuer == "" then issuer
        else Text.trimEndMatches issuer '/' ++ "/.well-known/openid-configuration").getD ""
    else value.discoveryUri
  return {
    enabled := value.enabled
    discoveryUri
    clientId := value.clientId
    clientSecret := value.clientSecret
    publicUrl := value.publicUrl
    groupsClaim := value.groupsClaim
    requiredGroup := value.requiredGroup
    scopes := value.scopes }

def Oidc.deserialize (value : Toml) : Option Oidc := do
  let input ← OidcInput.deserialize value
  (Oidc.tryFrom input).toOption

/-! ### The sections -/

def Http.serialize (http : Http) : Toml :=
  .table [("address", http.address.serialize), ("oidc", http.oidc.serialize), ("port", .integer http.port)]

def Http.deserialize (value : Toml) : Option Http := do
  let entries ← value.fields ["oidc", "address", "port"]
  let missing := Http.default
  return {
    oidc := ← field entries "oidc" Oidc.deserialize missing.oidc
    address := ← field entries "address" IpAddr.deserialize missing.address
    port := ← field entries "port" (asUnsigned Width.u16) missing.port }

def SourceMode.serialize : SourceMode → Toml
  | .any => .string "any"
  | .allowlist => .string "allowlist"

def SourceMode.deserialize : Toml → Option SourceMode
  | .string "any" => some .any
  | .string "allowlist" => some .allowlist
  | _ => none

def SourceAccess.serialize (access : SourceAccess) : Toml :=
  .table [("allowed_ips", .array (access.allowedIps.map IpAddr.serialize)), ("mode", access.mode.serialize)]

def SourceAccess.deserialize (value : Toml) : Option SourceAccess := do
  let entries ← value.fields ["mode", "allowed_ips"]
  let missing := SourceAccess.default
  return {
    mode := ← field entries "mode" SourceMode.deserialize missing.mode
    allowedIps := ← field entries "allowed_ips" (asList IpAddr.deserialize) missing.allowedIps }

def Listener.serialize (listener : Listener) : Toml :=
  .table
    [("address", listener.address.serialize), ("max_message_bytes", .integer listener.maxMessageBytes),
      ("port", .integer listener.port)]

def Listener.deserialize (value : Toml) : Option Listener := do
  let entries ← value.fields ["address", "port", "max_message_bytes"]
  let missing := Listener.default
  return {
    address := ← field entries "address" IpAddr.deserialize missing.address
    port := ← field entries "port" (asUnsigned Width.u16) missing.port
    maxMessageBytes := ← field entries "max_message_bytes" (asUnsigned Width.u64) missing.maxMessageBytes }

def Remote.serialize (remote : Remote) : Toml :=
  .table
    ((remote.expectedServerName.map fun name => ("expected_server_name", .string name)).toList ++
      [("host", .string remote.host), ("port", .integer remote.port)])

def Remote.deserialize (value : Toml) : Option Remote := do
  let entries ← value.fields ["host", "port", "expected_server_name"]
  return {
    host := ← field entries "host" asString none
    port := ← field entries "port" (asUnsigned Width.u16) (some 6514)
    expectedServerName := ← optionalField entries "expected_server_name" asString }

/-- The tag of the only provider. -/
def provider (name : String) (value : Toml) : Option Unit := do
  let tag ← value.asString
  if tag = name then some () else none

def Identity.serialize (identity : Identity) : Toml :=
  .table
    [("certificate_chain", .string identity.certificateChain), ("private_key", .string identity.privateKey),
      ("provider", .string "pem")]

def Identity.deserialize (value : Toml) : Option Identity := do
  let entries ← value.fields ["provider", "certificate_chain", "private_key"]
  let () ← field entries "provider" (provider "pem") none
  return {
    certificateChain := ← field entries "certificate_chain" asString none
    privateKey := ← field entries "private_key" asString none }

def Trust.serialize (trust : Trust) : Toml :=
  .table [("ca_bundle", .string trust.caBundle), ("provider", .string "pem_ca")]

def Trust.deserialize (value : Toml) : Option Trust := do
  let entries ← value.fields ["provider", "ca_bundle"]
  let () ← field entries "provider" (provider "pem_ca") none
  return { caBundle := ← field entries "ca_bundle" asString none }

def Queue.serialize (queue : Queue) : Toml :=
  .table [("max_bytes", .integer queue.maxBytes), ("max_messages", .integer queue.maxMessages)]

def Queue.deserialize (value : Toml) : Option Queue := do
  let entries ← value.fields ["max_messages", "max_bytes"]
  let missing := Queue.default
  return {
    maxMessages := ← field entries "max_messages" (asUnsigned Width.u64) missing.maxMessages
    maxBytes := ← field entries "max_bytes" (asUnsigned Width.u64) missing.maxBytes }

def Dtls.serialize (dtls : Dtls) : Toml :=
  .table
    [("datagram_bytes", .integer dtls.datagramBytes),
      ("handshake_timeout_ms", .integer dtls.handshakeTimeoutMs),
      ("messages_per_second", .integer dtls.messagesPerSecond),
      ("retry_initial_ms", .integer dtls.retryInitialMs),
      ("retry_max_ms", .integer dtls.retryMaxMs),
      ("shutdown_drain_ms", .integer dtls.shutdownDrainMs)]

def Dtls.deserialize (value : Toml) : Option Dtls := do
  let entries ← value.fields
    ["handshake_timeout_ms", "retry_initial_ms", "retry_max_ms", "datagram_bytes", "messages_per_second",
      "shutdown_drain_ms"]
  let missing := Dtls.default
  return {
    handshakeTimeoutMs := ← field entries "handshake_timeout_ms" (asUnsigned Width.u64) missing.handshakeTimeoutMs
    retryInitialMs := ← field entries "retry_initial_ms" (asUnsigned Width.u64) missing.retryInitialMs
    retryMaxMs := ← field entries "retry_max_ms" (asUnsigned Width.u64) missing.retryMaxMs
    datagramBytes := ← field entries "datagram_bytes" (asUnsigned Width.u32) missing.datagramBytes
    messagesPerSecond := ← field entries "messages_per_second" (asUnsigned Width.u32) missing.messagesPerSecond
    shutdownDrainMs := ← field entries "shutdown_drain_ms" (asUnsigned Width.u64) missing.shutdownDrainMs }

/-! ### The record -/

def Config.serialize (config : Config) : Toml :=
  .table
    [("dtls", config.dtls.serialize),
      ("http", config.http.serialize),
      ("identity", config.identity.serialize),
      ("listener", config.listener.serialize),
      ("queue", config.queue.serialize),
      ("remote", config.remote.serialize),
      ("schema_version", .integer config.schemaVersion),
      ("source_access", config.sourceAccess.serialize),
      ("trust", config.trust.serialize)]

def Config.deserialize (value : Toml) : Option Config := do
  let entries ← value.fields
    ["schema_version", "listener", "http", "remote", "identity", "trust", "source_access", "queue", "dtls"]
  return {
    schemaVersion := ← field entries "schema_version" (asUnsigned Width.u32) none
    listener := ← field entries "listener" Listener.deserialize none
    http := ← field entries "http" Http.deserialize Http.default
    remote := ← field entries "remote" Remote.deserialize none
    identity := ← field entries "identity" Identity.deserialize none
    trust := ← field entries "trust" Trust.deserialize none
    sourceAccess := ← field entries "source_access" SourceAccess.deserialize SourceAccess.default
    queue := ← field entries "queue" Queue.deserialize Queue.default
    dtls := ← field entries "dtls" Dtls.deserialize Dtls.default }

/-- The `toml` crate below the derived code. -/
structure TomlCodec where
  /-- The text `toml::to_string_pretty` makes of a document. -/
  print : Toml → Option String
  /-- The document `toml::from_str` reads in a text. -/
  read : String → Option Toml

/-- `toml::to_string_pretty`. -/
def TomlCodec.toStringPretty (codec : TomlCodec) (config : Config) : Option String := codec.print config.serialize

/-- `toml::from_str`. -/
def TomlCodec.fromStr (codec : TomlCodec) (text : String) : Option Config := (codec.read text).bind Config.deserialize

end SyslogDtlsAgent
