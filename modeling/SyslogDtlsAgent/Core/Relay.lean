import SyslogDtlsAgent.Core.Config
import SyslogDtlsAgent.Core.Framing
import SyslogDtlsAgent.Core.Status
import SyslogDtlsAgent.Library.Machine

/-!
# The relay

`relay.rs` as one machine. The shared `State` is only touched inside its mutex, so the machine's
actions are the critical sections of the listener thread, of the sender thread and of `stop`, and the
calls the sender makes between them; an interleaving is a list of actions. Everything the threads do
not control (clock readings, datagrams, lookup, connect, poll and write outcomes) is part of the
action. The sender's place in its loop is a `Pc`, and each `Pc` reads the clock at most once, except
around a write. Events record what crossed the boundary; no step reads them.
-/

namespace SyslogDtlsAgent

open Library

/-! ### The shared state -/

structure Message where
  payload : Bytes
  source : IpAddr
  deriving DecidableEq

structure State where
  status : Status
  queue : List Message
  sources : Sources
  started : Instant
  stopAt : Option Instant

/-- `started.elapsed().as_secs()`. -/
def State.elapsedSecs (s : State) (now : Instant) : Nat := ⌊now - s.started⌋₊

def snapshot (s : State) (now : Instant) : Status :=
  { s.status with
    sources := s.sources.snapshot (s.elapsedSecs now)
    sourceTrackingLimit := sourceLimit
    untrackedSourceMessages := s.sources.untrackedMessages }

def expired (s : State) (now : Instant) : Bool := s.stopAt.any (· ≤ now)

/-! ### Events -/

/-- Why a datagram was dropped. -/
inductive Drop where
  | invalid
  | oversized
  | queueFull
  | shutdown
  | sourceDenied
  deriving DecidableEq

/-- How a queued message left the queue. -/
inductive Fate where
  | forwarded
  | oversized
  | shutdown
  deriving DecidableEq

inductive Event where
  /-- A datagram from the canonical address `ip` was counted. -/
  | received (ip : IpAddr) (allowed : Bool)
  /-- The datagram just received was dropped. -/
  | refused (ip : IpAddr) (reason : Drop)
  /-- The datagram just received was pushed on the queue. -/
  | accepted (message : Message)
  /-- A message left the queue. -/
  | finished (message : Message) (fate : Fate)
  | lookupStarted (worker : Nat)
  | lookupTaken (worker : Nat)
  | connect (remote : SocketAddr)
  | opened (session : Nat)
  | peerInfo (session : Nat)
  | polled (session : Nat) (result : Except String Unit)
  | maxPlaintext (session : Nat) (bytes : Nat)
  | wrote (session : Nat) (frame : Bytes) (result : Except String WriteOutcome)
      (called returned : Instant)
  | closed (session : Nat)
  | paused (duration : Duration)

/-! ### The listener -/

section Listener

variable (lib : External) (cfg : Config)

/-- The access decision for a canonical source address. -/
def sourceAllowed (ip : IpAddr) : Bool :=
  cfg.sourceAccess.mode == .any || (cfg.sourceAccess.allowedIps.map canonicalIp).contains ip

def Drops.add (drops : Drops) : Drop → Drops
  | .invalid => { drops with invalid := drops.invalid + 1 }
  | .oversized => { drops with oversized := drops.oversized + 1 }
  | .queueFull => { drops with queueFull := drops.queueFull + 1 }
  | .shutdown => { drops with shutdown := drops.shutdown + 1 }
  | .sourceDenied => { drops with sourceDenied := drops.sourceDenied + 1 }

/-- The datagram is counted before it is filtered. -/
def State.countReceived (s : State) (ip : IpAddr) (allowed : Bool) (wallMs : Nat) : State :=
  { s with
    status :=
      { s.status with
        messagesReceived := s.status.messagesReceived + 1
        lastReceivedMs := some wallMs }
    sources := s.sources.received ip allowed wallMs }

/-- One of the five ways `listen` drops the datagram at hand. -/
def State.refuse (s : State) (ip : IpAddr) (reason : Drop) : State :=
  { s with
    status :=
      { s.status with
        drops := s.status.drops.add reason
        messagesDropped := s.status.messagesDropped + 1 }
    sources := s.sources.dropped ip }

def State.push (s : State) (message : Message) : State :=
  { s with
    status :=
      { s.status with
        queueBytes := s.status.queueBytes + message.payload.length
        queueDepth := s.queue.length + 1 }
    queue := s.queue ++ [message] }

/-- The filters in the order `listen` applies them. -/
def refusal (s : State) (ip : IpAddr) (payload : Bytes) : Option Drop :=
  if !sourceAllowed cfg ip then some .sourceDenied
  else if s.stopAt.isSome then some .shutdown
  else if cfg.listener.maxMessageBytes < payload.length then some .oversized
  else if !validMessage lib payload then some .invalid
  else if cfg.queue.maxMessages ≤ s.queue.length ∨
      cfg.queue.maxBytes < s.status.queueBytes + payload.length then some .queueFull
  else none

/-- The critical section for one datagram. The receive buffer holds 65536 bytes. -/
def receive (s : State) (peer : IpAddr) (datagram : Bytes) (wallMs : Nat) : State × List Event :=
  let payload := datagram.take 65536
  let ip := canonicalIp peer
  let allowed := sourceAllowed cfg ip
  let s := s.countReceived ip allowed wallMs
  match refusal lib cfg s ip payload with
  | some reason => (s.refuse ip reason, [.received ip allowed, .refused ip reason])
  | none =>
      (s.push ⟨payload, ip⟩, [.received ip allowed, .accepted ⟨payload, ip⟩])

/-- The critical section after a socket failure. -/
def listenerFailed (s : State) (error : String) (now : Instant) : State :=
  { s with
    status :=
      { s.status with
        listenerStatus := "failed"
        lastError := some ("UDP listener failed: " ++ error) }
    stopAt := some now }

inductive ListenPc where
  | check
  | receiving
  | exited
  deriving DecidableEq

/-- What `recv_from` returns. -/
inductive Recv where
  | datagram (peer : IpAddr) (bytes : Bytes)
  /-- `WouldBlock`, `TimedOut` or `Interrupted`. -/
  | again
  | failed (error : String)

structure ListenerInput where
  recv : Recv
  now : Instant
  wallMs : Nat

def listenStep (i : ListenerInput) (s : State) : ListenPc → State × ListenPc × List Event
  | .check => (s, if s.stopAt.isSome then .exited else .receiving, [])
  | .receiving =>
      match i.recv with
      | .datagram peer bytes =>
          let (s, events) := receive lib cfg s peer bytes i.wallMs
          (s, .check, events)
      | .again => (s, .check, [])
      | .failed error => (listenerFailed s error i.now, .exited, [])
  | .exited => (s, .exited, [])

end Listener

/-! ### The sender -/

def finishFront (s : State) (forwarded : Bool) (now : Instant) (wallMs : Nat) : State :=
  let s :=
    match s.queue with
    | [] => s
    | m :: rest =>
        { s with
          queue := rest
          status := { s.status with queueBytes := s.status.queueBytes - m.payload.length }
          sources :=
            if forwarded then s.sources.forwarded m.source (s.elapsedSecs now)
            else s.sources.dropped m.source }
  let status := { s.status with queueDepth := s.queue.length, inFlight := false }
  { s with
    status :=
      if forwarded then
        { status with
          messagesForwarded := status.messagesForwarded + 1
          lastForwardedMs := some wallMs }
      else
        { status with
          messagesDropped := status.messagesDropped + 1
          drops := { status.drops with oversized := status.drops.oversized + 1 } } }

/-- The last critical section of the sender. -/
def drain (s : State) : State :=
  let dropped := s.queue.length
  { s with
    status :=
      { s.status with
        messagesDropped := s.status.messagesDropped + dropped
        drops := { s.status.drops with shutdown := s.status.drops.shutdown + dropped }
        queueDepth := 0
        queueBytes := 0
        inFlight := false
        dtlsStatus := "stopped"
        running := false }
    queue := []
    sources := s.queue.foldl (fun sources m => sources.dropped m.source) s.sources }

/-- Where the sender stands in its loop, with the locals of the current iteration. -/
inductive Pc where
  | top
  | resolving
  | lookup
  | awaitCheck (until_ : Instant)
  | awaitRecv (until_ : Instant)
  | dial (addresses : List SocketAddr)
  | connecting (remote : SocketAddr)
  | established (session : Nat)
  | connectFailed (error : String)
  | retry (error : String)
  | backoff
  | polling
  | fetch
  | take
  | writing
  | sent
  | pace
  | failed (error : String)
  | failedStatus (error : String)
  | failedPause
  | idle
  | closing
  | drain
  | done
  /-- An unwrap or an index of the source failed. -/
  | panicked
  deriving DecidableEq

/-- The locals of `send`. Sessions and lookup workers are numbered in the order they appear. -/
structure Sender where
  pc : Pc
  session : Option Nat
  pendingFrame : Option Bytes
  writeStarted : Instant
  dns : Option Nat
  attempts : Nat
  delay : Nat
  nextSend : Instant
  jitter : BitVec 64
  sessions : Nat
  lookups : Nat

/-- What `recv_timeout` on the lookup channel returns. -/
inductive LookupRecv where
  | result (addresses : Except String (List SocketAddr))
  | timeout
  | disconnected

/-- What the sender's next step gets from outside; a step looks only at what its `Pc` calls for. -/
structure SenderInput where
  now : Instant
  /-- A clock reading after the call the step makes has returned. -/
  returned : Instant
  wallMs : Nat
  spawn : Except String Unit
  recv : LookupRecv
  connect : Except String Unit
  peerInfo : PeerInfo
  poll : Except String Unit
  maxPlaintext : Nat
  write : Except String WriteOutcome

structure SenderStep where
  state : State
  sender : Sender
  events : List Event

def usizeRange : Nat := 2 ^ 64

/-- One round of the scheduling jitter. -/
def nextJitter (jitter : BitVec 64) : BitVec 64 :=
  let jitter := jitter ^^^ (jitter <<< 13)
  let jitter := jitter ^^^ (jitter >>> 7)
  jitter ^^^ (jitter <<< 17)

/-- The pause after a failed resolve or connect, in milliseconds. -/
def backoffMs (delay : Nat) (jitter : BitVec 64) (retryMaxMs : Nat) : Nat :=
  min (delay * 3 / 4 + jitter.toNat % (delay / 2 + 1)) retryMaxMs

section Sender

variable (lib : External) (cfg : Config)

def nextDelay (delay : Nat) : Nat := min (delay * 2) cfg.dtls.retryMaxMs

def senderStep (i : SenderInput) (s : State) (t : Sender) : SenderStep :=
  let goto (pc : Pc) : SenderStep := ⟨s, { t with pc }, []⟩
  match t.pc with
  | .top =>
      if s.stopAt.any fun at_ => at_ ≤ i.now || s.queue.isEmpty then goto .closing
      else if t.session.isNone then goto .resolving
      else goto .polling
  | .resolving =>
      ⟨{ s with status := { s.status with dtlsStatus := "resolving", inFlight := false } },
        { t with pc := .lookup }, []⟩
  | .lookup =>
      let until_ := i.now + fromMillis cfg.dtls.handshakeTimeoutMs
      if t.dns.isSome then goto (.awaitCheck until_)
      else
        match normalizeName lib cfg.remote.host, i.spawn with
        | .error e, _ => goto (.connectFailed e)
        | .ok _, .error e => goto (.connectFailed e)
        | .ok _, .ok () =>
            ⟨s, { t with pc := .awaitCheck until_, dns := some t.lookups, lookups := t.lookups + 1 },
              [.lookupStarted t.lookups]⟩
  | .awaitCheck until_ =>
      if expired s i.now then goto (.connectFailed "Stopping") else goto (.awaitRecv until_)
  | .awaitRecv until_ =>
      match t.dns with
      | none => goto .panicked
      | some worker =>
          match i.recv with
          | .result (.ok []) =>
              ⟨s, { t with pc := .connectFailed "DNS returned no addresses", dns := none },
                [.lookupTaken worker]⟩
          | .result (.ok addresses) =>
              ⟨s, { t with pc := .dial addresses, dns := none }, [.lookupTaken worker]⟩
          | .result (.error e) =>
              ⟨s, { t with pc := .connectFailed e, dns := none }, [.lookupTaken worker]⟩
          | .timeout =>
              if until_ ≤ i.now then goto (.connectFailed "DNS lookup timed out")
              else goto (.awaitCheck until_)
          | .disconnected =>
              ⟨s, { t with pc := .connectFailed "DNS worker stopped", dns := none }, []⟩
  | .dial addresses =>
      match addresses[t.attempts % addresses.length]? with
      | none => goto .panicked
      | some remote =>
          ⟨{ s with
              status :=
                { s.status with
                  dtlsStatus := "handshaking"
                  remoteAddress := some remote.display } },
            { t with pc := .connecting remote, attempts := (t.attempts + 1) % usizeRange }, []⟩
  | .connecting remote =>
      match i.connect with
      | .ok () =>
          ⟨s, { t with pc := .established t.sessions, sessions := t.sessions + 1 },
            [.connect remote, .opened t.sessions]⟩
      | .error e => ⟨s, { t with pc := .connectFailed e }, [.connect remote]⟩
  | .established session =>
      ⟨{ s with
          status :=
            { s.status with
              dtlsStatus := "established"
              lastHandshakeMs := some i.wallMs
              lastError := none
              peerFingerprint := some i.peerInfo.fingerprint
              cipher := some i.peerInfo.cipher
              protocol := some i.peerInfo.protocol } },
        { t with pc := .polling, session := some session, pendingFrame := none },
        [.peerInfo session]⟩
  | .connectFailed error =>
      if expired s i.now then goto .closing else goto (.retry error)
  | .retry error =>
      ⟨{ s with
          status :=
            { s.status with
              dtlsStatus := "retrying"
              lastError := some error
              retryAttempts := s.status.retryAttempts + 1 } },
        { t with pc := .backoff }, []⟩
  | .backoff =>
      let jitter := nextJitter t.jitter
      ⟨s, { t with pc := .top, jitter, delay := nextDelay cfg t.delay },
        [.paused (fromMillis (backoffMs t.delay jitter cfg.dtls.retryMaxMs))]⟩
  | .polling =>
      match t.session with
      | none => goto .panicked
      | some session =>
          if t.pendingFrame.isSome then goto .writing
          else
            match i.poll with
            | .error e => ⟨s, { t with pc := .failed e }, [.polled session i.poll]⟩
            | .ok () => ⟨s, { t with pc := .fetch }, [.polled session i.poll]⟩
  | .fetch => if t.nextSend ≤ i.now then goto .take else goto .writing
  | .take =>
      match t.session, s.queue with
      | none, _ => goto .panicked
      | some _, [] => goto .writing
      | some session, m :: _ =>
          let bytes := frame m.payload
          if i.maxPlaintext < bytes.length then
            ⟨finishFront s false i.now i.wallMs, { t with pc := .top },
              [.maxPlaintext session i.maxPlaintext, .finished m .oversized]⟩
          else
            ⟨{ s with status := { s.status with inFlight := true } },
              { t with pc := .writing, pendingFrame := some bytes, writeStarted := i.now },
              [.maxPlaintext session i.maxPlaintext]⟩
  | .writing =>
      match t.pendingFrame, t.session with
      | none, _ => goto .idle
      | some _, none => goto .panicked
      | some bytes, some session =>
          let wrote := Event.wrote session bytes i.write i.now i.returned
          match i.write with
          | .ok .sent => ⟨s, { t with pc := .sent }, [wrote]⟩
          | .ok .wouldBlock =>
              if fromMillis cfg.dtls.handshakeTimeoutMs < i.returned - t.writeStarted then
                ⟨s, { t with
                    pc := .failed
                      "DTLS write timed out; queued message retained (delivery may be ambiguous)" },
                  [wrote]⟩
              else ⟨s, { t with pc := .idle }, [wrote]⟩
          | .error e => ⟨s, { t with pc := .failed e }, [wrote]⟩
  | .sent =>
      ⟨finishFront s true i.now i.wallMs, { t with pc := .pace, pendingFrame := none },
        (s.queue.head?.map fun m => Event.finished m .forwarded).toList⟩
  | .pace =>
      ⟨s, { t with
          pc := .idle
          delay := cfg.dtls.retryInitialMs
          nextSend := i.now + 1 / (cfg.dtls.messagesPerSecond : ℚ) }, []⟩
  | .failed error =>
      match t.session with
      | none => goto .panicked
      | some session =>
          ⟨s, { t with pc := .failedStatus error, session := none, pendingFrame := none },
            [.closed session]⟩
  | .failedStatus error =>
      ⟨{ s with
          status :=
            { s.status with
              dtlsStatus := "retrying"
              inFlight := false
              lastError := some error
              retryAttempts := s.status.retryAttempts + 1 } },
        { t with pc := .failedPause }, []⟩
  | .failedPause =>
      ⟨s, { t with pc := .top, delay := nextDelay cfg t.delay }, [.paused (fromMillis t.delay)]⟩
  | .idle =>
      let duration :=
        if t.pendingFrame.isSome || s.queue.isEmpty then fromMillis 10
        else min (max 0 (t.nextSend - i.now)) (fromMillis 10)
      ⟨s, { t with pc := .top }, [.paused duration]⟩
  | .closing =>
      ⟨s, { t with pc := .drain, session := none }, (t.session.map Event.closed).toList⟩
  | .drain =>
      ⟨SyslogDtlsAgent.drain s, { t with pc := .done }, s.queue.map fun m => .finished m .shutdown⟩
  | .done => goto .done
  | .panicked => goto .panicked

end Sender

/-! ### The whole relay -/

/-- What `Relay::start` and the first lines of `send` read from outside. -/
structure Boot where
  localAddress : SocketAddr
  clientFingerprint : String
  started : Instant
  writeStarted : Instant
  nextSend : Instant
  wallMs : Nat

structure World where
  shared : State
  listener : ListenPc
  sender : Sender

inductive Action where
  | listener (i : ListenerInput)
  | sender (i : SenderInput)
  /-- The first critical section of `stop`. -/
  | stop (now : Instant)
  /-- The last critical section of `stop`, after both threads have been joined. -/
  | join

/-- The state `Relay::start` builds. -/
def State.start (cfg : Config) (boot : Boot) : State where
  status :=
    { Status.default with
      running := true
      listenerStatus := "listening"
      listenerAddress := boot.localAddress.display
      dtlsStatus := "resolving"
      remoteDestination := cfg.remote.host ++ ":" ++ toString cfg.remote.port
      clientFingerprint := some boot.clientFingerprint }
  queue := []
  sources := Sources.empty
  started := boot.started
  stopAt := none

def Sender.start (cfg : Config) (boot : Boot) : Sender where
  pc := .top
  session := none
  pendingFrame := none
  writeStarted := boot.writeStarted
  dns := none
  attempts := 0
  delay := cfg.dtls.retryInitialMs
  nextSend := boot.nextSend
  jitter := BitVec.ofNat 64 boot.wallMs ||| 1#64
  sessions := 0
  lookups := 0

/-- The critical section in which `stop` asks both threads to end. -/
def stopRequest (cfg : Config) (now : Instant) (s : State) : State :=
  if s.stopAt.isNone then { s with stopAt := some (now + fromMillis cfg.dtls.shutdownDrainMs) } else s

/-- The critical section in which `stop` reads the final status. -/
def stopFinish (s : State) : State :=
  { s with
    status :=
      { s.status with
        running := false
        listenerStatus := "stopped"
        dtlsStatus := "stopped"
        inFlight := false } }

section World

variable (lib : External) (cfg : Config) (boot : Boot)

def World.start : World := ⟨State.start cfg boot, .check, Sender.start cfg boot⟩

def World.next (w : World) : Action → World
  | .listener i =>
      let (shared, listener, _) := listenStep lib cfg i w.shared w.listener
      { w with shared, listener }
  | .sender i =>
      let step := senderStep lib cfg i w.shared w.sender
      { w with shared := step.state, sender := step.sender }
  | .stop now => { w with shared := stopRequest cfg now w.shared }
  | .join =>
      if w.listener = .exited ∧ (w.sender.pc = .done ∨ w.sender.pc = .panicked) then
        { w with shared := stopFinish w.shared }
      else w

def World.emit (w : World) : Action → List Event
  | .listener i => (listenStep lib cfg i w.shared w.listener).2.2
  | .sender i => (senderStep lib cfg i w.shared w.sender).events
  | .stop _ => []
  | .join => []

/-- The relay: every interleaving of the listener, the sender and `stop`. -/
def relay : Machine World Action Event where
  init := World.start cfg boot
  next := World.next lib cfg
  emit := World.emit lib cfg

end World

end SyslogDtlsAgent
