import SyslogDtlsAgent.Core.Config
import SyslogDtlsAgent.Library.Scan

/-!
# What validation accepts

`Config::validate` is a chain of checks. Here it is one proposition, split into the settings proper and
the credential paths, which it looks at last.
-/

namespace SyslogDtlsAgent

open Library

variable {lib : External}

/-- The settings that `validate` accepts, credential paths aside. -/
structure Config.SettingsValid (lib : External) (config : Config) : Prop where
  oidc : config.http.oidc.validate lib = .ok ()
  schemaVersion : config.schemaVersion = 1
  allowedIps : config.sourceAccess.allowedIps.length ≤ 4096
  ports : config.listener.port ≠ 0 ∧ config.remote.port ≠ 0 ∧ config.http.port ≠ 0
  host : ∃ name, normalizeName lib config.remote.host = .ok name
  serverName : ∃ name, config.serverName lib = .ok name
  maxMessageBytes : 1 ≤ config.listener.maxMessageBytes ∧ config.listener.maxMessageBytes ≤ 16378
  maxMessages : 1 ≤ config.queue.maxMessages ∧ config.queue.maxMessages ≤ 1000000
  maxBytes : 1 ≤ config.queue.maxBytes ∧ config.queue.maxBytes ≤ 1073741824
  datagramBytes : 576 ≤ config.dtls.datagramBytes ∧ config.dtls.datagramBytes ≤ 16448
  handshakeTimeout : 100 ≤ config.dtls.handshakeTimeoutMs ∧ config.dtls.handshakeTimeoutMs ≤ 120000
  retryInitial : 100 ≤ config.dtls.retryInitialMs ∧ config.dtls.retryInitialMs ≤ 60000
  retryMax : config.dtls.retryInitialMs ≤ config.dtls.retryMaxMs ∧ config.dtls.retryMaxMs ≤ 300000
  shutdownDrain : config.dtls.shutdownDrainMs ≤ 30000
  messagesPerSecond : 1 ≤ config.dtls.messagesPerSecond ∧ config.dtls.messagesPerSecond ≤ 100000

/-- No credential path is empty. -/
def Config.PathsGiven (config : Config) : Prop :=
  config.identity.certificateChain ≠ "" ∧ config.identity.privateKey ≠ "" ∧ config.trust.caBundle ≠ ""

@[simp] theorem within_eq_true {low high value : Nat} :
    within low high value = true ↔ low ≤ value ∧ value ≤ high := by
  simp [within]

theorem Config.validate_eq_ok {config : Config} :
    config.validate lib = .ok () ↔ config.SettingsValid lib ∧ config.PathsGiven := by
  simp only [Config.validate, bind_eq_ok, reject_eq_ok, exists_const, Bool.or_eq_false_iff,
    Bool.not_eq_false', within_eq_true, decide_eq_false_iff_not, not_lt, bne_eq_false_iff_eq,
    beq_eq_false_iff_ne]
  constructor
  · rintro ⟨⟨⟩, hoidc, hschema, hips, ⟨⟨hlistener, hremote⟩, hhttp⟩, name, hname, server, hserver, hmessage,
      ⟨hmessages, hbytes⟩, hdatagram, ⟨⟨⟨⟨⟨hhandshake, hinitial⟩, hless⟩, hmax⟩, hdrain⟩, hrate⟩,
      ⟨hchain, hkey⟩, hbundle⟩
    exact ⟨⟨hoidc, hschema, hips, ⟨hlistener, hremote, hhttp⟩, ⟨name, hname⟩, ⟨server, hserver⟩, hmessage,
      hmessages, hbytes, hdatagram, hhandshake, hinitial, ⟨hless, hmax⟩, hdrain, hrate⟩, hchain, hkey, hbundle⟩
  · rintro ⟨h, hchain, hkey, hbundle⟩
    obtain ⟨name, hname⟩ := h.host
    obtain ⟨server, hserver⟩ := h.serverName
    exact ⟨(), h.oidc, h.schemaVersion, h.allowedIps, ⟨⟨h.ports.1, h.ports.2.1⟩, h.ports.2.2⟩, name, hname,
      server, hserver, h.maxMessageBytes, ⟨h.maxMessages, h.maxBytes⟩, h.datagramBytes,
      ⟨⟨⟨⟨⟨h.handshakeTimeout, h.retryInitial⟩, h.retryMax.1⟩, h.retryMax.2⟩, h.shutdownDrain⟩,
        h.messagesPerSecond⟩, ⟨hchain, hkey⟩, hbundle⟩

/-- The defaults pass their own checks, if `idna` leaves the default host alone. -/
theorem Config.default_valid (lib : External)
    (h : lib.domainToAsciiStrict "collector.example.com" = some "collector.example.com") :
    Config.default.validate lib = .ok () := by
  have hip : parseIpAddr "collector.example.com" = none := by decide
  have hname : normalizeName lib "collector.example.com" = .ok "collector.example.com" := by
    simp only [normalizeName, hip, h]
    decide +kernel
  refine Config.validate_eq_ok.mpr ⟨?_, by simp [Config.PathsGiven, Config.default]⟩
  exact {
    oidc := rfl
    schemaVersion := rfl
    allowedIps := by decide
    ports := by decide
    host := ⟨_, hname⟩
    serverName := ⟨_, hname⟩
    maxMessageBytes := by decide
    maxMessages := by decide
    maxBytes := by decide
    datagramBytes := by decide
    handshakeTimeout := by decide
    retryInitial := by decide
    retryMax := by decide
    shutdownDrain := by decide
    messagesPerSecond := by decide }
end SyslogDtlsAgent
