import SyslogDtlsAgent.Core.Sources

/-!
# Status and transport records

`status.rs`, and the values of `transport.rs` that cross the `Session` and `Connector` traits.
-/

namespace SyslogDtlsAgent

structure Drops where
  invalid : Nat
  oversized : Nat
  queueFull : Nat
  shutdown : Nat
  sourceDenied : Nat

def Drops.total (drops : Drops) : Nat :=
  drops.invalid + drops.oversized + drops.queueFull + drops.shutdown + drops.sourceDenied

structure Status where
  running : Bool
  listenerStatus : String
  listenerAddress : String
  dtlsStatus : String
  remoteDestination : String
  remoteAddress : Option String
  messagesReceived : Nat
  messagesForwarded : Nat
  messagesDropped : Nat
  drops : Drops
  queueDepth : Nat
  queueBytes : Nat
  inFlight : Bool
  lastReceivedMs : Option Nat
  lastForwardedMs : Option Nat
  lastHandshakeMs : Option Nat
  lastError : Option String
  retryAttempts : Nat
  peerFingerprint : Option String
  clientFingerprint : Option String
  cipher : Option String
  protocol : Option String
  sources : List SourceStatus
  sourceTrackingLimit : Nat
  untrackedSourceMessages : Nat

def Status.default : Status where
  running := false
  listenerStatus := ""
  listenerAddress := ""
  dtlsStatus := ""
  remoteDestination := ""
  remoteAddress := none
  messagesReceived := 0
  messagesForwarded := 0
  messagesDropped := 0
  drops := ⟨0, 0, 0, 0, 0⟩
  queueDepth := 0
  queueBytes := 0
  inFlight := false
  lastReceivedMs := none
  lastForwardedMs := none
  lastHandshakeMs := none
  lastError := none
  retryAttempts := 0
  peerFingerprint := none
  clientFingerprint := none
  cipher := none
  protocol := none
  sources := []
  sourceTrackingLimit := 0
  untrackedSourceMessages := 0

inductive WriteOutcome where
  | sent
  | wouldBlock
  deriving DecidableEq

structure PeerInfo where
  fingerprint : String
  cipher : String
  protocol : String

end SyslogDtlsAgent
