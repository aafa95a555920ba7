import SyslogDtlsAgent.Core.Serde
import SyslogDtlsAgent.Proof.Config.Paths
import SyslogDtlsAgent.Proof.Net.Display

/-!
# Saving and loading

Each section is read back from what it is written as, and so is the record. Validation bounds every integer
but the ports, whose type does. Path resolution happens on the way back and only once: what it gives is
absolute.
-/

namespace SyslogDtlsAgent

open Library Toml

/-! ### Reading back -/

@[simp] theorem IpAddr.deserialize_serialize (ip : IpAddr) : IpAddr.deserialize ip.serialize = some ip :=
  parseIpAddr_display ip

/-- The OIDC section as it is read back: without the fields of older versions. -/
theorem OidcInput.deserialize_serialize (oidc : Oidc) :
    OidcInput.deserialize oidc.serialize =
      some ⟨none, none, oidc.enabled, oidc.discoveryUri, oidc.clientId, oidc.clientSecret, oidc.publicUrl,
        oidc.groupsClaim, oidc.requiredGroup, oidc.scopes⟩ := by
  have hscopes := asList_array asString_string oidc.scopes
  simp only [OidcInput.deserialize, Oidc.serialize]
  rw [fields_table (by rfl)]
  simp [optionalField, field_next, hscopes]

/-- Without those fields the conversion changes nothing. -/
theorem Oidc.tryFrom_plain (oidc : Oidc) :
    Oidc.tryFrom ⟨none, none, oidc.enabled, oidc.discoveryUri, oidc.clientId, oidc.clientSecret, oidc.publicUrl,
      oidc.groupsClaim, oidc.requiredGroup, oidc.scopes⟩ = .ok oidc := by
  have huri : (if oidc.discoveryUri == "" then "" else oidc.discoveryUri) = oidc.discoveryUri := by
    split_ifs with hempty
    · exact (eq_of_beq hempty).symm
    · rfl
  simp only [Oidc.tryFrom, Option.any_none, Bool.and_false, reject, Bool.false_eq_true, if_false, Option.map_none,
    Option.getD_none, huri]
  rfl

@[simp] theorem Oidc.deserialize_serialize (oidc : Oidc) : Oidc.deserialize oidc.serialize = some oidc := by
  rw [Oidc.deserialize, OidcInput.deserialize_serialize]
  simp only [bind, Option.bind_some, Oidc.tryFrom_plain, Except.toOption]

theorem Http.deserialize_serialize {http : Http} (hport : http.port ≤ Width.u16) :
    Http.deserialize http.serialize = some http := by
  simp only [Http.deserialize, Http.serialize]
  rw [fields_table (by rfl)]
  simp [field_next, asUnsigned_integer hport]

@[simp] theorem SourceMode.deserialize_serialize (mode : SourceMode) :
    SourceMode.deserialize mode.serialize = some mode := by
  cases mode <;> rfl

theorem SourceAccess.deserialize_serialize (access : SourceAccess) :
    SourceAccess.deserialize access.serialize = some access := by
  have hips := asList_array IpAddr.deserialize_serialize access.allowedIps
  simp only [SourceAccess.deserialize, SourceAccess.serialize]
  rw [fields_table (by rfl)]
  simp [field_next, hips]

theorem Listener.deserialize_serialize {listener : Listener} (hport : listener.port ≤ Width.u16)
    (hbytes : listener.maxMessageBytes ≤ Width.u64) : Listener.deserialize listener.serialize = some listener := by
  simp only [Listener.deserialize, Listener.serialize]
  rw [fields_table (by rfl)]
  simp [field_next, asUnsigned_integer hport, asUnsigned_integer hbytes]

theorem Remote.deserialize_serialize {remote : Remote} (hport : remote.port ≤ Width.u16) :
    Remote.deserialize remote.serialize = some remote := by
  obtain ⟨host, port, name⟩ := remote
  simp only [Remote.deserialize, Remote.serialize]
  cases name with
  | none =>
      rw [fields_table (by rfl)]
      simp [optionalField, field_next, asUnsigned_integer hport]
  | some name =>
      rw [fields_table (by rfl)]
      simp [optionalField, field_next, asUnsigned_integer hport]

theorem Identity.deserialize_serialize (identity : Identity) :
    Identity.deserialize identity.serialize = some identity := by
  simp only [Identity.deserialize, Identity.serialize]
  rw [fields_table (by rfl)]
  simp [field_next, provider]

theorem Trust.deserialize_serialize (trust : Trust) : Trust.deserialize trust.serialize = some trust := by
  simp only [Trust.deserialize, Trust.serialize]
  rw [fields_table (by rfl)]
  simp [field_next, provider]

theorem Queue.deserialize_serialize {queue : Queue} (hmessages : queue.maxMessages ≤ Width.u64)
    (hbytes : queue.maxBytes ≤ Width.u64) : Queue.deserialize queue.serialize = some queue := by
  simp only [Queue.deserialize, Queue.serialize]
  rw [fields_table (by rfl)]
  simp [field_next, asUnsigned_integer hmessages, asUnsigned_integer hbytes]

/-- Every number fits its type. -/
structure Dtls.Fits (dtls : Dtls) : Prop where
  handshakeTimeout : dtls.handshakeTimeoutMs ≤ Width.u64
  retryInitial : dtls.retryInitialMs ≤ Width.u64
  retryMax : dtls.retryMaxMs ≤ Width.u64
  datagramBytes : dtls.datagramBytes ≤ Width.u32
  messagesPerSecond : dtls.messagesPerSecond ≤ Width.u32
  shutdownDrain : dtls.shutdownDrainMs ≤ Width.u64

theorem Dtls.deserialize_serialize {dtls : Dtls} (h : dtls.Fits) : Dtls.deserialize dtls.serialize = some dtls := by
  simp only [Dtls.deserialize, Dtls.serialize]
  rw [fields_table (by rfl)]
  simp [field_next, asUnsigned_integer h.handshakeTimeout, asUnsigned_integer h.retryInitial,
    asUnsigned_integer h.retryMax, asUnsigned_integer h.datagramBytes, asUnsigned_integer h.messagesPerSecond,
    asUnsigned_integer h.shutdownDrain]

/-- The ports are `u16`. -/
structure Config.PortsFit (config : Config) : Prop where
  listener : config.listener.port ≤ Width.u16
  http : config.http.port ≤ Width.u16
  remote : config.remote.port ≤ Width.u16

variable {lib : External} {config : Config} {base : String}

theorem Config.SettingsValid.dtls (h : config.SettingsValid lib) : config.dtls.Fits := by
  have h1 := h.handshakeTimeout.2
  have h2 := h.retryInitial.2
  have h3 := h.retryMax.2
  have h4 := h.datagramBytes.2
  have h5 := h.messagesPerSecond.2
  have h6 := h.shutdownDrain
  constructor <;> simp only [Width.u64, Width.u32] <;> omega

/-- Settings that validation accepts are read back from what they are written as. -/
theorem Config.deserialize_serialize (h : config.SettingsValid lib) (hports : config.PortsFit) :
    Config.deserialize config.serialize = some config := by
  have hversion : config.schemaVersion ≤ Width.u32 := by
    rw [h.schemaVersion]
    decide
  have hbytes := h.maxMessageBytes.2
  have hmessages := h.maxMessages.2
  have hqueue := h.maxBytes.2
  have hlistener := Listener.deserialize_serialize hports.listener (by simp only [Width.u64]; omega)
  have hhttp := Http.deserialize_serialize hports.http
  have hremote := Remote.deserialize_serialize hports.remote
  have hqueue := @Queue.deserialize_serialize config.queue (by simp only [Width.u64]; omega)
    (by simp only [Width.u64]; omega)
  have hdtls := Dtls.deserialize_serialize h.dtls
  simp only [Config.deserialize, Config.serialize]
  rw [fields_table (by rfl)]
  simp [field_next, asUnsigned_integer hversion, hlistener, hhttp, hremote, hqueue, hdtls,
    Identity.deserialize_serialize, Trust.deserialize_serialize, SourceAccess.deserialize_serialize]

/-! ### The range of the integers -/

theorem Oidc.serialize_inRange (oidc : Oidc) : oidc.serialize.InRange := by
  simp [Oidc.serialize]

theorem SourceAccess.serialize_inRange (access : SourceAccess) : access.serialize.InRange := by
  cases hmode : access.mode <;> simp [SourceAccess.serialize, SourceMode.serialize, IpAddr.serialize, hmode]

theorem Remote.serialize_inRange {remote : Remote} (hport : InRange (.integer remote.port)) :
    remote.serialize.InRange := by
  cases hname : remote.expectedServerName <;> simp [Remote.serialize, hname, hport]

/-- No integer of accepted settings is too large for a document. -/
theorem Config.serialize_inRange (h : config.SettingsValid lib) (hports : config.PortsFit) :
    config.serialize.InRange := by
  have hport : ∀ {n : Nat}, n ≤ Width.u16 → InRange (.integer n) := fun hn => .ofNat (hn.trans_lt (by decide))
  have hsmall : ∀ {n : Nat}, n ≤ 1073741824 → InRange (.integer n) := fun hn => .ofNat (hn.trans_lt (by decide))
  have hdtls : config.dtls.serialize.InRange := by
    have hhandshake := hsmall (h.handshakeTimeout.2.trans (by decide))
    have hinitial := hsmall (h.retryInitial.2.trans (by decide))
    have hmax := hsmall (h.retryMax.2.trans (by decide))
    have hdatagram := hsmall (h.datagramBytes.2.trans (by decide))
    have hrate := hsmall (h.messagesPerSecond.2.trans (by decide))
    have hdrain := hsmall (h.shutdownDrain.trans (by decide))
    simp [Dtls.serialize, hhandshake, hinitial, hmax, hdatagram, hrate, hdrain]
  have hversion := hsmall (h.schemaVersion.le.trans (by decide))
  have hbytes := hsmall (h.maxMessageBytes.2.trans (by decide))
  have hmessages := hsmall (h.maxMessages.2.trans (by decide))
  have hqueue := hsmall h.maxBytes.2
  simp [Config.serialize, Http.serialize, Identity.serialize, Listener.serialize, Queue.serialize, Trust.serialize,
    IpAddr.serialize, hdtls, hversion, hbytes, hmessages, hqueue, hport hports.listener, hport hports.http,
    Remote.serialize_inRange (hport hports.remote), Oidc.serialize_inRange, SourceAccess.serialize_inRange]

/-! ### Text -/

/-- The codec loses nothing of a document whose integers fit. -/
def TomlCodec.Lossless (codec : TomlCodec) (document : Toml) : Prop :=
  document.InRange → ∃ text, codec.print document = some text ∧ codec.read text = some document

/-- Accepted settings can be written, and what is read back has its paths resolved. -/
theorem Config.parse_toToml {codec : TomlCodec} (hcodec : codec.Lossless config.serialize)
    (hsettings : config.SettingsValid lib) (hports : config.PortsFit) :
    ∃ text, config.toToml codec.toStringPretty = .ok text ∧ ∀ base,
      (config.resolvePaths base).validate lib = .ok () →
        Config.parse lib codec.fromStr text base = .ok (config.resolvePaths base) := by
  obtain ⟨text, hprint, hread⟩ := hcodec (Config.serialize_inRange hsettings hports)
  refine ⟨text, okOr_eq_ok.mpr hprint, fun base hvalid => Config.parse_eq_ok.mpr ⟨config, ?_, rfl, hvalid⟩⟩
  rw [TomlCodec.fromStr, hread, Option.bind_some]
  exact Config.deserialize_serialize hsettings hports

/-- Accepted settings survive saving and loading: what is loaded under an absolute base has its paths resolved
and is loaded unchanged ever after, and an OIDC section, also one converted from an older version, is read
back as it is and without anything left to convert. -/
theorem settings_survive_saving (codec : TomlCodec) (hvalid : config.validate lib = .ok ())
    (hports : config.PortsFit) (hbase : isRelative base = false) (hcodec : codec.Lossless config.serialize)
    (hcodec' : codec.Lossless (config.resolvePaths base).serialize) :
    let result := config.resolvePaths base
    (∃ text, config.toToml codec.toStringPretty = .ok text ∧
        Config.parse lib codec.fromStr text base = .ok result) ∧
      (∃ text, result.toToml codec.toStringPretty = .ok text ∧ ∀ other,
        Config.parse lib codec.fromStr text other = .ok result) ∧
      ∀ input oidc, Oidc.tryFrom input = .ok oidc →
        Oidc.deserialize oidc.serialize = some oidc ∧
          ∃ again, OidcInput.deserialize oidc.serialize = some again ∧ again.issuerUrl = none ∧
            again.clientSecretEnv = none ∧ Oidc.tryFrom again = .ok oidc := by
  obtain ⟨hsettings, -⟩ := Config.validate_eq_ok.mp hvalid
  have hne : base ≠ "" := by
    rintro rfl
    exact absurd hbase (by decide)
  have hresolved : (config.resolvePaths base).validate lib = .ok () := (Config.validate_resolvePaths hne).mpr hsettings
  refine ⟨?_, ?_, fun input oidc _ => ⟨Oidc.deserialize_serialize oidc, _, OidcInput.deserialize_serialize oidc, rfl, rfl,
    Oidc.tryFrom_plain oidc⟩⟩
  · obtain ⟨text, htext, hparse⟩ := Config.parse_toToml hcodec hsettings hports
    exact ⟨text, htext, hparse base hresolved⟩
  · obtain ⟨text, htext, hparse⟩ := Config.parse_toToml hcodec' (Config.validate_eq_ok.mp hresolved).1
      ⟨hports.listener, hports.http, hports.remote⟩
    refine ⟨text, htext, fun other => ?_⟩
    have hsame := Config.resolvePaths_resolvePaths hbase other config
    have hread := hparse other (hsame.symm ▸ hresolved)
    rwa [hsame] at hread

/-- The default settings, saved and loaded from `/etc`. -/
theorem settings_survive_saving_by_default :
    let lib : External := ⟨fun _ => false, some, fun _ => none, fun _ => []⟩
    let text (chain key bundle : String) : String :=
      "schema_version = 1\n\n[listener]\naddress = \"127.0.0.1\"\nport = 1514\nmax_message_bytes = 8192\n\n" ++
      "[http]\naddress = \"127.0.0.1\"\nport = 1080\n\n[http.oidc]\nenabled = false\ndiscovery_uri = \"\"\n" ++
      "client_id = \"\"\nclient_secret = \"\"\npublic_url = \"\"\ngroups_claim = \"groups\"\n" ++
      "required_group = \"\"\nscopes = []\n\n[remote]\nhost = \"collector.example.com\"\nport = 6514\n\n" ++
      "[identity]\nprovider = \"pem\"\ncertificate_chain = \"" ++ chain ++ "\"\nprivate_key = \"" ++ key ++
      "\"\n\n[trust]\nprovider = \"pem_ca\"\nca_bundle = \"" ++ bundle ++ "\"\n\n" ++
      "[source_access]\nmode = \"any\"\nallowed_ips = []\n\n" ++
      "[queue]\nmax_messages = 10000\nmax_bytes = 16777216\n\n[dtls]\nhandshake_timeout_ms = 10000\n" ++
      "retry_initial_ms = 1000\nretry_max_ms = 60000\ndatagram_bytes = 1200\nmessages_per_second = 1000\n" ++
      "shutdown_drain_ms = 2000\n"
    let result := Config.default.resolvePaths "/etc"
    let codec : TomlCodec :=
      { print := fun v => (Config.deserialize v).map fun c =>
          text c.identity.certificateChain c.identity.privateKey c.trust.caBundle
        read := fun t =>
          if t = text "client.pem" "client-key.pem" "ca.pem" then some Config.default.serialize
          else if t = text "/etc/client.pem" "/etc/client-key.pem" "/etc/ca.pem" then some result.serialize
          else none }
    result.identity.privateKey = "/etc/client-key.pem" ∧
      ∃ text, Config.default.toToml codec.toStringPretty = .ok text ∧
        Config.parse lib codec.fromStr text "/etc" = .ok result := by
  intro lib text result codec
  have hvalid : Config.default.validate lib = .ok () := Config.default_valid lib rfl
  have hsettings := (Config.validate_eq_ok.mp hvalid).1
  have hports : Config.default.PortsFit := ⟨by decide, by decide, by decide⟩
  have hports' : result.PortsFit := ⟨by decide, by decide, by decide⟩
  have hother : text "/etc/client.pem" "/etc/client-key.pem" "/etc/ca.pem" ≠
      text "client.pem" "client-key.pem" "ca.pem" := by decide +kernel
  have hprint : ∀ {config : Config}, config.SettingsValid lib → config.PortsFit →
      codec.print config.serialize =
        some (text config.identity.certificateChain config.identity.privateKey config.trust.caBundle) :=
    fun hsettings hports => by
      simp only [codec, Config.deserialize_serialize hsettings hports, Option.map_some]
  have hcodec : codec.Lossless Config.default.serialize := fun _ =>
    ⟨_, hprint hsettings hports, by simp only [codec]; exact if_pos rfl⟩
  have hcodec' : codec.Lossless result.serialize := fun _ =>
    ⟨_, hprint (Config.resolvePaths_settingsValid.mpr hsettings) hports', by
      simp only [codec]
      exact (if_neg hother).trans (if_pos rfl)⟩
  exact ⟨by decide, (settings_survive_saving codec hvalid hports (by decide) hcodec hcodec').1⟩

end SyslogDtlsAgent
