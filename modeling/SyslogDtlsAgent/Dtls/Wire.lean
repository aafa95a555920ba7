import SyslogDtlsAgent.Core.Relay
import SyslogDtlsAgent.Dtls.Connector

/-!
# The relay over OpenSSL

The relay with `OpenSslConnector` as its connector. The sender's calls of `connect`, `poll`, `send` and
`close` are what the adapter makes of the answers of OpenSSL, and the loop of `connect` takes one action a
round, so that a stop or a datagram can come between two rounds. The machine emits the calls, each with the
number of its association: the calls of `connect` are counted from zero.
-/

namespace SyslogDtlsAgent

open Library

/-- What the sender's next step gets from outside, the answers of OpenSSL among it. -/
structure WireInput where
  now : Instant
  returned : Instant
  wallMs : Nat
  spawn : Except String Unit
  recv : LookupRecv
  peerInfo : PeerInfo
  opening : Opening
  ssl : Ssl
  round : OpenSslSession.Round
  read : Int

inductive WireAction where
  | listener (i : ListenerInput)
  | sender (i : WireInput)
  | stop (now : Instant)
  | join

structure Wire where
  world : World
  /-- The calls of `connect` so far. -/
  associations : Nat
  /-- Inside the loop of `connect`: when it gives up. -/
  handshake : Option Instant
  /-- What the last `connect` returned, until it is dropped. -/
  session : Option OpenSslSession

/-- What the adapter makes of the answers. -/
def WireInput.sender (i : WireInput) (session : Option OpenSslSession) (frame : Bytes)
    (connect : Except String Unit) : SenderInput where
  now := i.now
  returned := i.returned
  wallMs := i.wallMs
  spawn := i.spawn
  recv := i.recv
  connect
  peerInfo := i.peerInfo
  poll := (OpenSslSession.poll i.ssl i.read).result
  maxPlaintext := session.elim 0 OpenSslSession.maxPlaintext
  write := session.elim (.error "") fun s => s.send i.ssl frame

/-- The calls behind an operation of the sender on its session. -/
def Event.calls (i : WireInput) (session : Option OpenSslSession) : Event → List SslCall
  | .peerInfo _ => [.peerInfo]
  | .polled _ _ => (OpenSslSession.poll i.ssl i.read).calls
  | .wrote _ frame _ _ _ => session.elim [] fun s => (s.sendCalls i.ssl frame).calls
  | .closed _ => OpenSslSession.closeCalls
  | _ => []

/-- The session is dropped when it is closed. -/
def Event.drops : Event → Bool
  | .closed _ => true
  | _ => false

section

variable (lib : External) (cfg : Config) (boot : Boot)

namespace Wire

def start : Wire := ⟨World.start cfg boot, 0, none, none⟩

/-- The step of the relay's sender once the outcome of `connect`, if it is called, is known. -/
def senderStep (w : Wire) (i : WireInput) (connect : Except String Unit) : SenderStep :=
  SyslogDtlsAgent.senderStep lib cfg
    (i.sender w.session (w.world.sender.pendingFrame.getD []) connect) w.world.shared w.world.sender

/-- `w` after that step. -/
def advance (w : Wire) (i : WireInput) (connect : Except String Unit) : Wire :=
  let step := w.senderStep lib cfg i connect
  { w with
    world := { w.world with shared := step.state, sender := step.sender }
    session := if step.events.any Event.drops then none else w.session }

/-- `connect` has returned. -/
def connected (w : Wire) (i : WireInput) (result : Except String OpenSslSession) : Wire :=
  { w.advance lib cfg i (result.map fun _ => ()) with handshake := none, session := result.toOption }

def next (w : Wire) : WireAction → Wire
  | .listener i => { w with world := World.next lib cfg w.world (.listener i) }
  | .stop now => { w with world := World.next lib cfg w.world (.stop now) }
  | .join => { w with world := World.next lib cfg w.world .join }
  | .sender i =>
      match w.world.sender.pc, w.handshake with
      | .connecting remote, none =>
          let w := { w with associations := w.associations + 1 }
          match (OpenSslConnector.opening lib cfg i.opening remote).result with
          | .error e => w.connected lib cfg i (.error e)
          | .ok () => { w with handshake := some (i.now + fromMillis cfg.dtls.handshakeTimeoutMs) }
      | .connecting _, some until_ =>
          match (OpenSslSession.round (expired w.world.shared i.now) until_ i.returned i.ssl i.round).result with
          | .error e => w.connected lib cfg i (.error e)
          | .ok (some session) => w.connected lib cfg i (.ok session)
          | .ok none => w
      | _, _ => w.advance lib cfg i (.error "")

def emit (w : Wire) : WireAction → List (Nat × SslCall)
  | .sender i =>
      match w.world.sender.pc, w.handshake with
      | .connecting remote, none =>
          (OpenSslConnector.opening lib cfg i.opening remote).calls.map (Prod.mk w.associations)
      | .connecting _, some until_ =>
          (OpenSslSession.round (expired w.world.shared i.now) until_ i.returned i.ssl i.round).calls.map
            (Prod.mk (w.associations - 1))
      | _, _ =>
          ((w.senderStep lib cfg i (.error "")).events.flatMap (Event.calls i w.session)).map
            (Prod.mk (w.associations - 1))
  | _ => []

end Wire

/-- The relay over OpenSSL, in every interleaving of its threads. -/
def wire : Machine Wire WireAction (Nat × SslCall) where
  init := Wire.start cfg boot
  next := Wire.next lib cfg
  emit := Wire.emit lib cfg

end

end SyslogDtlsAgent
