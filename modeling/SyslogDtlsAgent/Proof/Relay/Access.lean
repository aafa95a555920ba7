import SyslogDtlsAgent.Proof.Relay.Fifo

/-!
# Access control

What gets into the queue, and what denied traffic can do to the rest. For the second part the world
is seen through `World.scrub`, which forgets what a denied datagram may change: the counters that
include it, the rows by source, the time of the last datagram, and where the listener stands in its
loop. Everything a run does then follows from its visible actions.
-/

namespace SyslogDtlsAgent

open Library

variable {lib : External} {cfg : Config} {boot : Boot}

theorem sourceAllowed_iff {ip : IpAddr} : sourceAllowed cfg ip = true ↔
    cfg.sourceAccess.mode = .any ∨ ∃ entry ∈ cfg.sourceAccess.allowedIps, canonicalIp entry = ip := by
  simp only [sourceAllowed, Bool.or_eq_true, beq_iff_eq, List.contains_iff_mem, List.mem_map]

/-- A datagram is pushed only from an allowed source, within the length limit and well formed. -/
theorem receive_queue (s : State) (peer : IpAddr) (datagram : Bytes) (wallMs : Nat) :
    (receive lib cfg s peer datagram wallMs).1.queue = s.queue ∨
      ((receive lib cfg s peer datagram wallMs).1.queue =
          s.queue ++ [⟨datagram.take 65536, canonicalIp peer⟩] ∧
        sourceAllowed cfg (canonicalIp peer) = true ∧
        (datagram.take 65536).length ≤ cfg.listener.maxMessageBytes ∧
        validMessage lib (datagram.take 65536) = true) := by
  simp only [receive]
  split
  · exact .inl rfl
  · rename_i hrefusal
    obtain ⟨hallowed, -, hlength, hvalid, -⟩ := refusal_eq_none.mp hrefusal
    exact .inr ⟨rfl, hallowed, hlength, hvalid⟩

theorem finishFront_suffix (s : State) (forwarded : Bool) (now : Instant) (wallMs : Nat) :
    (finishFront s forwarded now wallMs).queue <:+ s.queue := by
  cases hqueue : s.queue with
  | nil => simp only [finishFront, hqueue, List.suffix_rfl]
  | cons m rest => exact finishFront_queue hqueue forwarded now wallMs ▸ List.suffix_cons m rest

theorem senderStep_suffix (i : SenderInput) {s : State} {t : Sender} :
    (senderStep lib cfg i s t).state.queue <:+ s.queue := by
  cases hpc : t.pc with
  | take =>
      simp only [senderStep, hpc]
      split
      · exact List.suffix_rfl
      · exact List.suffix_rfl
      · split
        · exact finishFront_suffix _ _ _ _
        · exact List.suffix_rfl
  | sent =>
      simp only [senderStep, hpc]
      exact finishFront_suffix _ _ _ _
  | drain =>
      simp only [senderStep, hpc]
      exact List.nil_suffix
  | _ =>
      rw [senderStep_queue i (by simp [hpc])]

/-! ### Seen without denied traffic -/

def State.scrub (s : State) : State :=
  { s with
    status :=
      { s.status with
        messagesReceived := 0
        messagesDropped := 0
        drops := { s.status.drops with sourceDenied := 0 }
        lastReceivedMs := none }
    sources := Sources.empty }

def World.scrub (w : World) : World := ⟨w.shared.scrub, .check, w.sender⟩

/-- What a run does apart from denied datagrams and idle turns of the listener. -/
inductive Visible where
  /-- A datagram from an allowed source. -/
  | datagram (ip : IpAddr) (payload : Bytes)
  | listenerFailed (error : String) (now : Instant)
  | sender (i : SenderInput)
  | stop (now : Instant)
  /-- `stop` has joined both threads. -/
  | joined

def World.visible (cfg : Config) (w : World) : Action → Option Visible
  | .listener i =>
      match w.listener, i.recv with
      | .receiving, .datagram peer bytes =>
          if sourceAllowed cfg (canonicalIp peer) then
            some (.datagram (canonicalIp peer) (bytes.take 65536))
          else none
      | .receiving, .failed error => some (.listenerFailed error i.now)
      | _, _ => none
  | .sender i => some (.sender i)
  | .stop now => some (.stop now)
  | .join =>
      if w.listener = .exited ∧ (w.sender.pc = .done ∨ w.sender.pc = .panicked) then some .joined
      else none

/-- Events that do not concern a denied datagram. -/
def Event.audible : Event → Option Event
  | .received _ false => none
  | .refused _ .sourceDenied => none
  | e => some e

def World.replay (lib : External) (cfg : Config) (w : World) : Visible → World
  | .datagram ip payload => World.scrub { w with shared := (receive lib cfg w.shared ip payload 0).1 }
  | .listenerFailed error now => World.scrub { w with shared := listenerFailed w.shared error now }
  | .sender i => World.scrub (World.next lib cfg w (.sender i))
  | .stop now => World.scrub { w with shared := stopRequest cfg now w.shared }
  | .joined => World.scrub { w with shared := stopFinish w.shared }

def World.respond (lib : External) (cfg : Config) (w : World) : Visible → List Event
  | .datagram ip payload => (receive lib cfg w.shared ip payload 0).2.filterMap Event.audible
  | .sender i => (World.emit lib cfg w (.sender i)).filterMap Event.audible
  | _ => []

@[simp] theorem State.scrub_queue (s : State) : s.scrub.queue = s.queue := rfl

@[simp] theorem State.scrub_stopAt (s : State) : s.scrub.stopAt = s.stopAt := rfl

@[simp] theorem expired_scrub (s : State) (now : Instant) : expired s.scrub now = expired s now := rfl

theorem scrub_finishFront (s : State) (forwarded : Bool) (now : Instant) (wallMs : Nat) :
    (finishFront s.scrub forwarded now wallMs).scrub = (finishFront s forwarded now wallMs).scrub := by
  cases hqueue : s.queue <;> cases forwarded <;>
    simp only [finishFront, State.scrub_queue, hqueue] <;> rfl

structure SenderStep.Agrees (left right : SenderStep) : Prop where
  state : left.state.scrub = right.state.scrub
  sender : left.sender = right.sender
  events : left.events = right.events

/-- No step of the sender depends on what is scrubbed. -/
theorem scrub_senderStep (i : SenderInput) (s : State) (t : Sender) :
    (senderStep lib cfg i s.scrub t).Agrees (senderStep lib cfg i s t) := by
  cases hpc : t.pc with
  | top =>
      simp only [senderStep, hpc, State.scrub_queue, State.scrub_stopAt]
      by_cases hstop : (s.stopAt.any fun at_ => at_ ≤ i.now || s.queue.isEmpty) = true
      · simp only [hstop, if_true]
        exact ⟨rfl, rfl, rfl⟩
      · simp only [hstop]
        cases t.session <;> exact ⟨rfl, rfl, rfl⟩
  | awaitCheck until_ =>
      simp only [senderStep, hpc, expired_scrub]
      by_cases hexpired : expired s i.now = true <;> simp only [hexpired] <;> exact ⟨rfl, rfl, rfl⟩
  | connectFailed error =>
      simp only [senderStep, hpc, expired_scrub]
      by_cases hexpired : expired s i.now = true <;> simp only [hexpired] <;> exact ⟨rfl, rfl, rfl⟩
  | take =>
      simp only [senderStep, hpc, State.scrub_queue]
      split
      · exact ⟨rfl, rfl, rfl⟩
      · exact ⟨rfl, rfl, rfl⟩
      · split
        · exact ⟨scrub_finishFront _ _ _ _, rfl, rfl⟩
        · exact ⟨rfl, rfl, rfl⟩
  | sent =>
      simp only [senderStep, hpc]
      exact ⟨scrub_finishFront _ _ _ _, rfl, rfl⟩
  | idle =>
      simp only [senderStep, hpc]
      exact ⟨rfl, rfl, rfl⟩
  | _ =>
      simp only [senderStep, hpc]
      repeat' split
      all_goals exact ⟨rfl, rfl, rfl⟩

theorem scrub_stopRequest (s : State) (now : Instant) :
    (stopRequest cfg now s.scrub).scrub = (stopRequest cfg now s).scrub := by
  cases hstop : s.stopAt <;> simp only [stopRequest, State.scrub_stopAt, hstop] <;> rfl

theorem scrub_receive (s : State) {peer : IpAddr} (datagram : Bytes) (wallMs : Nat)
    (hallowed : sourceAllowed cfg (canonicalIp peer) = true) :
    (receive lib cfg s peer datagram wallMs).1.scrub =
        (receive lib cfg s.scrub (canonicalIp peer) (datagram.take 65536) 0).1.scrub ∧
      (receive lib cfg s peer datagram wallMs).2 =
        (receive lib cfg s.scrub (canonicalIp peer) (datagram.take 65536) 0).2 := by
  have hrefusal : refusal lib cfg
      (s.countReceived (canonicalIp peer) true wallMs) (canonicalIp peer) (datagram.take 65536) =
      refusal lib cfg (s.scrub.countReceived (canonicalIp peer) true 0) (canonicalIp peer)
        (datagram.take 65536) := rfl
  simp only [receive, canonicalIp_idem, List.take_take, Nat.min_self, hallowed, hrefusal]
  split
  · rename_i reason _
    exact ⟨by cases reason <;> rfl, rfl⟩
  · exact ⟨rfl, rfl⟩

/-- A denied datagram changes nothing that is seen. -/
theorem scrub_denied (s : State) {peer : IpAddr} (datagram : Bytes) (wallMs : Nat)
    (hdenied : sourceAllowed cfg (canonicalIp peer) = false) :
    (receive lib cfg s peer datagram wallMs).1.scrub = s.scrub ∧
      (receive lib cfg s peer datagram wallMs).2.filterMap Event.audible = [] := by
  simp only [receive, refusal, hdenied, Bool.not_false, if_true]
  exact ⟨rfl, rfl⟩

def accessObserver (lib : External) (cfg : Config) (boot : Boot) :
    (relay lib cfg boot).Observer (World.visible cfg) World Event where
  observe := World.scrub
  hear := Event.audible
  replay := World.replay lib cfg
  respond := World.respond lib cfg
  silent w action hsilent := by
    cases action with
    | listener i =>
        simp only [relay, World.next, World.emit]
        simp only [World.visible] at hsilent
        cases hlistener : w.listener with
        | check => exact ⟨rfl, rfl⟩
        | exited => exact ⟨rfl, rfl⟩
        | receiving =>
            cases hrecv : i.recv with
            | again => simp only [listenStep, hrecv]; exact ⟨rfl, rfl⟩
            | failed error => simp [hlistener, hrecv] at hsilent
            | datagram peer bytes =>
                simp only [hlistener, hrecv, ite_eq_right_iff, reduceCtorEq, imp_false,
                  Bool.not_eq_true] at hsilent
                simp only [listenStep, hrecv, World.scrub]
                obtain ⟨hstate, hevents⟩ := scrub_denied w.shared bytes i.wallMs hsilent
                exact ⟨by rw [hstate], hevents⟩
    | sender i => cases hsilent
    | stop now => cases hsilent
    | join =>
        simp only [World.visible, ite_eq_right_iff, reduceCtorEq, imp_false] at hsilent
        simp only [relay, World.next, World.emit, if_neg hsilent, List.filterMap_nil, and_self]
  follows w action b hvisible := by
    cases action with
    | listener i =>
        simp only [World.visible] at hvisible
        split at hvisible
        · rename_i peer bytes hlistener hrecv
          split at hvisible
          · rename_i hallowed
            cases hvisible
            obtain ⟨hstate, hevents⟩ := scrub_receive w.shared bytes i.wallMs hallowed
            simp only [relay, World.next, World.emit, World.replay, World.respond, listenStep,
              hlistener, hrecv, World.scrub]
            exact ⟨by rw [hstate], by rw [hevents]⟩
          · cases hvisible
        · rename_i error hlistener hrecv
          cases hvisible
          simp only [relay, World.next, World.emit, World.replay, World.respond, listenStep, hlistener,
            hrecv, World.scrub, List.filterMap_nil, and_true]
          rfl
        · cases hvisible
    | sender i =>
        cases hvisible
        have hstep : (senderStep lib cfg i w.shared.scrub w.sender).Agrees
            (senderStep lib cfg i w.shared w.sender) := scrub_senderStep i w.shared w.sender
        simp only [relay, World.next, World.emit, World.replay, World.respond, World.scrub]
        exact ⟨by rw [hstep.state, hstep.sender], by rw [hstep.events]⟩
    | stop now =>
        cases hvisible
        refine ⟨?_, rfl⟩
        simp only [relay, World.next, World.replay, World.scrub, scrub_stopRequest]
    | join =>
        simp only [World.visible] at hvisible
        split at hvisible
        · rename_i hjoined
          cases hvisible
          simp only [relay, World.next, World.emit, World.replay, World.respond, World.scrub,
            if_pos hjoined, List.filterMap_nil, and_true]
          rfl
        · cases hvisible

/-- `delivered` hears only audible events. -/
theorem delivered_audible (events : List Event) :
    delivered (events.filterMap Event.audible) = delivered events := by
  unfold delivered
  rw [List.filterMap_filterMap]
  congr 1
  funext e
  unfold Event.audible
  split <;> rfl

/-- Only well-formed datagrams from allowed sources, compared in canonical form, get into the queue, and
nothing else adds to it. Two runs that agree on everything but their denied datagrams (and the idle
turns of the listener around them) agree on the queue, on the frames sent and on every counter that
does not include denied datagrams. -/
theorem denied_sources_cannot_interfere (lib : External) (cfg : Config) (boot : Boot) :
    let relay := relay lib cfg boot
    (∀ (actions : List Action) (action : Action),
      let w := relay.run actions
      let queue' := (relay.next w action).shared.queue
      queue' <:+ w.shared.queue ∨
        ∃ i peer bytes, action = .listener i ∧ i.recv = .datagram peer bytes ∧
          queue' = w.shared.queue ++ [⟨bytes.take 65536, canonicalIp peer⟩] ∧
          (cfg.sourceAccess.mode = .any ∨
            ∃ entry ∈ cfg.sourceAccess.allowedIps, canonicalIp entry = canonicalIp peer) ∧
          (bytes.take 65536).length ≤ cfg.listener.maxMessageBytes ∧
          validMessage lib (bytes.take 65536) = true) ∧
      (∀ (s : State) (bits : BitVec 32) (bytes : Bytes) (wallMs : Nat),
        receive lib cfg s (IpAddr.toIpv6Mapped bits) bytes wallMs =
          receive lib cfg s (.v4 bits) bytes wallMs) ∧
      ∀ left right : List Action,
        relay.visibles (World.visible cfg) left = relay.visibles (World.visible cfg) right →
        let l := (relay.run left).shared
        let r := (relay.run right).shared
        l.queue = r.queue ∧ l.status.queueBytes = r.status.queueBytes ∧
          delivered (relay.trace left) = delivered (relay.trace right) ∧
          l.status.messagesForwarded = r.status.messagesForwarded ∧
          l.status.inFlight = r.status.inFlight ∧
          l.status.drops.invalid = r.status.drops.invalid ∧
          l.status.drops.oversized = r.status.drops.oversized ∧
          l.status.drops.queueFull = r.status.drops.queueFull ∧
          l.status.drops.shutdown = r.status.drops.shutdown := by
  intro relay
  refine ⟨fun actions action => ?_, fun s bits bytes wallMs => ?_, fun left right hsame => ?_⟩
  · intro w queue'
    cases action with
    | sender i => exact .inl (senderStep_suffix i)
    | stop now =>
        left
        simp only [queue', relay, SyslogDtlsAgent.relay, World.next, stopRequest]
        split <;> exact List.suffix_rfl
    | join =>
        left
        simp only [queue', relay, SyslogDtlsAgent.relay, World.next]
        split <;> exact List.suffix_rfl
    | listener i =>
        simp only [queue', relay, SyslogDtlsAgent.relay, World.next]
        cases hlistener : w.listener with
        | check => exact .inl List.suffix_rfl
        | exited => exact .inl List.suffix_rfl
        | receiving =>
            simp only [listenStep]
            cases hrecv : i.recv with
            | again => exact .inl List.suffix_rfl
            | failed error => exact .inl List.suffix_rfl
            | datagram peer bytes =>
                rcases receive_queue w.shared peer bytes i.wallMs with
                  hsame | ⟨hpushed, hallowed, hlength, hvalid⟩
                · exact .inl (hsame ▸ List.suffix_rfl)
                · exact .inr ⟨i, peer, bytes, rfl, hrecv, hpushed, sourceAllowed_iff.mp hallowed, hlength,
                    hvalid⟩
  · simp only [receive, canonicalIp_mapped, canonicalIp_v4]
  · intro l r
    obtain ⟨hobserved, hheard⟩ := (accessObserver lib cfg boot).unwinding hsame
    have hshared : l.scrub = r.scrub := congrArg World.shared hobserved
    have hdelivered := congrArg delivered hheard
    simp only [accessObserver, delivered_audible] at hdelivered
    have hstatus := congrArg State.status hshared
    refine ⟨?_, ?_, hdelivered, ?_, ?_, ?_, ?_, ?_, ?_⟩
    · exact congrArg (fun s => s.queue) hshared
    · exact congrArg (fun status => status.queueBytes) hstatus
    · exact congrArg (fun status => status.messagesForwarded) hstatus
    · exact congrArg (fun status => status.inFlight) hstatus
    · exact congrArg (fun status => status.drops.invalid) hstatus
    · exact congrArg (fun status => status.drops.oversized) hstatus
    · exact congrArg (fun status => status.drops.queueFull) hstatus
    · exact congrArg (fun status => status.drops.shutdown) hstatus

/-- A denied datagram ahead of an allowed one, with the allowlist in IPv4-mapped form. -/
theorem denied_sources_cannot_interfere_with_one_message :
    let lib : External := ⟨fun _ => false, fun _ => none, fun _ => none, fun _ => []⟩
    let cfg : Config :=
      { Config.default with sourceAccess := ⟨.allowlist, [IpAddr.toIpv6Mapped 0x7f000001#32]⟩ }
    let relay := relay lib cfg ⟨⟨.v4 0x7f000001#32, 1514⟩, "", 0, 0, 0, 0⟩
    let turn (peer : IpAddr) (text : String) : List Action :=
      [.listener ⟨.again, 0, 0⟩, .listener ⟨.datagram peer (asBytes text), 0, 0⟩]
    let allowed := turn (.v4 0x7f000001#32) "<0>1 - - - - - -"
    let denied := turn (.v4 0x0a000001#32) "<0>1 - - - - - -"
    (relay.run (denied ++ allowed)).shared.queue = (relay.run allowed).shared.queue := by
  intro lib cfg relay turn allowed denied
  have hsame : relay.visibles (World.visible cfg) (denied ++ allowed) =
      relay.visibles (World.visible cfg) allowed := rfl
  obtain ⟨-, -, htwo⟩ :=
    denied_sources_cannot_interfere lib cfg ⟨⟨.v4 0x7f000001#32, 1514⟩, "", 0, 0, 0, 0⟩
  exact (htwo (denied ++ allowed) allowed hsame).1

end SyslogDtlsAgent
