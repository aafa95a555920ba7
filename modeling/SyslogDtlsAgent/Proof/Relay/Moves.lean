import SyslogDtlsAgent.Core.Relay

/-!
# What one action of the relay can do

`World.next` has some fifty exits. What they do to the shared state and to the sender's session and
pending frame falls into the few moves of `Move`, and `move_next` is the only proof that looks at all
the exits. Every invariant of the relay is shown by cases on the move.
-/

namespace SyslogDtlsAgent

open Library

/-- No queue, counter or source changes; texts and times may, `inFlight` may be cleared, and a
requested stop stays requested. -/
structure Quiet (s s' : State) : Prop where
  queue : s'.queue = s.queue
  sources : s'.sources = s.sources
  started : s'.started = s.started
  messagesReceived : s'.status.messagesReceived = s.status.messagesReceived
  messagesForwarded : s'.status.messagesForwarded = s.status.messagesForwarded
  messagesDropped : s'.status.messagesDropped = s.status.messagesDropped
  drops : s'.status.drops = s.status.drops
  queueDepth : s'.status.queueDepth = s.status.queueDepth
  queueBytes : s'.status.queueBytes = s.status.queueBytes
  inFlight : s'.status.inFlight = true → s.status.inFlight = true
  stopAt : s.stopAt.isSome = true → s'.stopAt.isSome = true

theorem Quiet.refl (s : State) : Quiet s s := by
  constructor <;> first | rfl | exact id

/-- Events that concern neither a datagram, the queue nor a session. -/
def Event.isInternal : Event → Bool
  | .lookupStarted _ => true
  | .lookupTaken _ => true
  | .paused _ => true
  | _ => false

/-- Which part of `send` a place belongs to. -/
inductive Place where
  | top
  /-- Between losing a session and getting the next one. -/
  | offline
  /-- A session is connected but not stored yet. -/
  | opening (session : Nat)
  /-- Inside the part of the loop that has a session. -/
  | online
  /-- As `online`, after a poll that found no pending frame. -/
  | fetching
  /-- A write was reported sent, the head is not removed yet. -/
  | sent
  | closing
  | draining
  | done
  | lost
  deriving DecidableEq

/-- The sender has left its loop. -/
def Place.isLeaving : Place → Bool
  | .closing | .draining | .done => true
  | _ => false

def Pc.place : Pc → Place
  | .top => .top
  | .resolving | .lookup | .awaitCheck _ | .awaitRecv _ | .dial _ | .connecting _ => .offline
  | .connectFailed _ | .retry _ | .backoff | .failedStatus _ | .failedPause => .offline
  | .established session => .opening session
  | .polling | .writing | .pace | .failed _ | .idle => .online
  | .fetch | .take => .fetching
  | .sent => .sent
  | .closing => .closing
  | .drain => .draining
  | .done => .done
  | .panicked => .lost

/-- Where the sender may go without touching the queue, its session or its pending frame. -/
inductive Wander (s : State) (t : Sender) : Place → Prop where
  | stay {place : Place} (h : t.pc.place = place) : Wander s t place
  | offline (h : t.pc.place = .top) (hsession : t.session = none) : Wander s t .offline
  | online (h : t.pc.place = .top ∧ t.session.isSome = true ∨ t.pc.place = .fetching) :
      Wander s t .online
  | top (h : t.pc.place = .offline ∨ t.pc.place = .online) : Wander s t .top
  | leave (h : t.pc.place = .top ∨ t.pc.place = .offline) (hstop : s.stopAt.isSome = true) :
      Wander s t .closing
  | lost (h : t.pc.place = .offline ∨ t.pc.place = .online ∨ t.pc.place = .fetching) : Wander s t .lost

/-- Places that are entered and left by moves of their own. -/
def Place.isFixed : Place → Bool
  | .opening _ | .sent | .draining | .done => true
  | _ => false

theorem Wander.fixed_iff {s : State} {t : Sender} {place : Place} (h : Wander s t place) (fixed : Place)
    (hfixed : fixed.isFixed = true) : place = fixed ↔ t.pc.place = fixed := by
  have hne {other : Place} (hother : other.isFixed = false) : other ≠ fixed := by
    intro hsame
    rw [hsame, hfixed] at hother
    cases hother
  cases h with
  | stay h => rw [h]
  | offline h =>
      rw [h]
      exact iff_of_false (hne rfl) (hne rfl)
  | online h =>
      rcases h with ⟨h, _⟩ | h <;> rw [h] <;> exact iff_of_false (hne rfl) (hne rfl)
  | top h =>
      rcases h with h | h <;> rw [h] <;> exact iff_of_false (hne rfl) (hne rfl)
  | leave h =>
      rcases h with h | h <;> rw [h] <;> exact iff_of_false (hne rfl) (hne rfl)
  | lost h =>
      rcases h with h | h | h <;> rw [h] <;> exact iff_of_false (hne rfl) (hne rfl)

/-- What a datagram that gets past every filter satisfies. -/
theorem refusal_eq_none {lib : External} {cfg : Config} {s : State} {ip : IpAddr} {payload : Bytes} :
    refusal lib cfg s ip payload = none ↔
      sourceAllowed cfg ip = true ∧ s.stopAt = none ∧
        payload.length ≤ cfg.listener.maxMessageBytes ∧ validMessage lib payload = true ∧
        s.queue.length < cfg.queue.maxMessages ∧
        s.status.queueBytes + payload.length ≤ cfg.queue.maxBytes := by
  have hstop : s.stopAt = none ↔ ¬ s.stopAt.isSome = true := by
    cases s.stopAt <;> simp
  rw [hstop]
  unfold refusal
  split_ifs with hallowed hstopped hlength hvalid hfull
  · simp only [Bool.not_eq_true'] at hallowed
    simp [hallowed]
  · simp [hstopped]
  · simp only [false_iff]
    omega
  · simp only [Bool.not_eq_true'] at hvalid
    simp [hvalid]
  · simp only [false_iff]
    omega
  · simp only [Bool.not_eq_true', Bool.not_eq_false] at hallowed hvalid
    simp only [hallowed, hvalid, hstopped, true_iff]
    exact ⟨trivial, by simp, by omega, trivial, by omega, by omega⟩

section FinishFront

variable {s : State} {m : Message} {rest : List Message} (hqueue : s.queue = m :: rest)
  (forwarded : Bool) (now : Instant) (wallMs : Nat)

include hqueue

theorem finishFront_queue : (finishFront s forwarded now wallMs).queue = rest := by
  simp only [finishFront, hqueue]

theorem finishFront_sources : (finishFront s forwarded now wallMs).sources =
    if forwarded then s.sources.forwarded m.source (s.elapsedSecs now)
    else s.sources.dropped m.source := by
  simp only [finishFront, hqueue]

theorem finishFront_received :
    (finishFront s forwarded now wallMs).status.messagesReceived = s.status.messagesReceived := by
  simp only [finishFront, hqueue]
  split <;> rfl

end FinishFront

section

variable (lib : External) (cfg : Config)

inductive Move (w : World) : World → List Event → Prop where
  /-- Nothing but texts, times, the sender's place and its scheduling locals changes. -/
  | quiet {w' : World} {events : List Event}
      (shared : Quiet w.shared w'.shared)
      (session : w'.sender.session = w.sender.session)
      (pendingFrame : w'.sender.pendingFrame = w.sender.pendingFrame)
      (sessions : w'.sender.sessions = w.sender.sessions)
      (internal : ∀ e ∈ events, e.isInternal = true)
      (place : Wander w.shared w.sender w'.sender.pc.place) :
      Move w w' events
  /-- The listener drops a datagram. -/
  | refused {listener : ListenPc} {reason : Drop} (ip : IpAddr) (payload : Bytes) (wallMs : Nat)
      (hrefusal : refusal lib cfg (w.shared.countReceived ip (sourceAllowed cfg ip) wallMs) ip payload
        = some reason)
      (hip : canonicalIp ip = ip) :
      Move w
        { w with
          shared := (w.shared.countReceived ip (sourceAllowed cfg ip) wallMs).refuse ip reason
          listener }
        [.received ip (sourceAllowed cfg ip), .refused ip reason]
  /-- The listener queues a datagram. -/
  | accepted {listener : ListenPc} (ip : IpAddr) (payload : Bytes) (wallMs : Nat)
      (hrefusal : refusal lib cfg (w.shared.countReceived ip (sourceAllowed cfg ip) wallMs) ip payload
        = none)
      (hip : canonicalIp ip = ip) :
      Move w
        { w with
          shared := (w.shared.countReceived ip (sourceAllowed cfg ip) wallMs).push ⟨payload, ip⟩
          listener }
        [.received ip (sourceAllowed cfg ip), .accepted ⟨payload, ip⟩]
  | connectFailed {error : String} (remote : SocketAddr) (hpc : w.sender.pc = .connecting remote) :
      Move w { w with sender := { w.sender with pc := .connectFailed error } } [.connect remote]
  | opened (remote : SocketAddr) (hpc : w.sender.pc = .connecting remote) :
      Move w
        { w with sender :=
            { w.sender with
              pc := .established w.sender.sessions
              sessions := w.sender.sessions + 1 } }
        [.connect remote, .opened w.sender.sessions]
  | established {shared : State} (session : Nat) (hpc : w.sender.pc = .established session)
      (hshared : Quiet w.shared shared) :
      Move w
        { w with
          shared
          sender := { w.sender with pc := .polling, session := some session, pendingFrame := none } }
        [.peerInfo session]
  | polled {pc : Pc} (session : Nat) (result : Except String Unit) (hpc : w.sender.pc = .polling)
      (hsession : w.sender.session = some session) (hframe : w.sender.pendingFrame = none)
      (hnext : pc = .fetch ∨ ∃ error, pc = .failed error) :
      Move w { w with sender := { w.sender with pc } } [.polled session result]
  /-- The head does not fit a record of this session. -/
  | oversized (i : SenderInput) (session : Nat) (m : Message) (rest : List Message)
      (hpc : w.sender.pc = .take) (hsession : w.sender.session = some session)
      (hqueue : w.shared.queue = m :: rest) (hlarge : i.maxPlaintext < (frame m.payload).length) :
      Move w
        { w with
          shared := finishFront w.shared false i.now i.wallMs
          sender := { w.sender with pc := .top } }
        [.maxPlaintext session i.maxPlaintext, .finished m .oversized]
  | taken (i : SenderInput) (session : Nat) (m : Message) (rest : List Message)
      (hpc : w.sender.pc = .take) (hsession : w.sender.session = some session)
      (hqueue : w.shared.queue = m :: rest) (hfits : (frame m.payload).length ≤ i.maxPlaintext) :
      Move w
        { w with
          shared := { w.shared with status := { w.shared.status with inFlight := true } }
          sender :=
            { w.sender with
              pc := .writing
              pendingFrame := some (frame m.payload)
              writeStarted := i.now } }
        [.maxPlaintext session i.maxPlaintext]
  | wrote {pc : Pc} (i : SenderInput) (session : Nat) (bytes : Bytes) (hpc : w.sender.pc = .writing)
      (hsession : w.sender.session = some session) (hframe : w.sender.pendingFrame = some bytes)
      (hsent : pc = .sent ↔ i.write = .ok .sent)
      (hnext : pc = .sent ∨ pc = .idle ∨ ∃ error, pc = .failed error) :
      Move w { w with sender := { w.sender with pc } }
        [.wrote session bytes i.write i.now i.returned]
  | forwarded (i : SenderInput) (hpc : w.sender.pc = .sent) :
      Move w
        { w with
          shared := finishFront w.shared true i.now i.wallMs
          sender := { w.sender with pc := .pace, pendingFrame := none } }
        (w.shared.queue.head?.map fun m => Event.finished m .forwarded).toList
  /-- The session is closed, after a failure or on the way out. -/
  | closed {pc : Pc} {pendingFrame : Option Bytes}
      (hnext : (pc = .drain ∧ w.sender.pc = .closing ∧ pendingFrame = w.sender.pendingFrame) ∨
        ∃ error, w.sender.pc = .failed error ∧ pc = .failedStatus error ∧ pendingFrame = none) :
      Move w { w with sender := { w.sender with pc, session := none, pendingFrame } }
        (w.sender.session.map Event.closed).toList
  | drained (hpc : w.sender.pc = .drain) :
      Move w { w with shared := drain w.shared, sender := { w.sender with pc := .done } }
        (w.shared.queue.map fun m => Event.finished m .shutdown)

variable {lib cfg}

/-- A quiet move of the sender: what is left to check is where it goes. -/
theorem Move.wander {w : World} {shared : State} {sender : Sender} {events : List Event}
    (hshared : Quiet w.shared shared)
    (hsame : sender.session = w.sender.session ∧ sender.pendingFrame = w.sender.pendingFrame ∧
      sender.sessions = w.sender.sessions)
    (hinternal : ∀ e ∈ events, e.isInternal = true)
    (hplace : Wander w.shared w.sender sender.pc.place) :
    Move lib cfg w { w with shared, sender } events :=
  .quiet hshared hsame.1 hsame.2.1 hsame.2.2 hinternal hplace

/-- The sender only changes its place. -/
theorem Move.goto {w : World} {pc : Pc} (hplace : Wander w.shared w.sender pc.place) :
    Move lib cfg w { w with sender := { w.sender with pc } } [] :=
  .wander (Quiet.refl _) ⟨rfl, rfl, rfl⟩ (fun _ h => absurd h List.not_mem_nil) hplace

/-- A quiet change of the status record that also clears or keeps `inFlight`. -/
theorem Quiet.status {s : State} {status : Status}
    (hcounters : status.messagesReceived = s.status.messagesReceived ∧
      status.messagesForwarded = s.status.messagesForwarded ∧
      status.messagesDropped = s.status.messagesDropped ∧ status.drops = s.status.drops ∧
      status.queueDepth = s.status.queueDepth ∧ status.queueBytes = s.status.queueBytes)
    (hflight : status.inFlight = true → s.status.inFlight = true) :
    Quiet s { s with status } := by
  obtain ⟨h1, h2, h3, h4, h5, h6⟩ := hcounters
  exact ⟨rfl, rfl, rfl, h1, h2, h3, h4, h5, h6, hflight, id⟩

theorem move_listener (w : World) (i : ListenerInput) :
    Move lib cfg w (World.next lib cfg w (.listener i)) (World.emit lib cfg w (.listener i)) := by
  have hquiet : ∀ {shared : State} {listener : ListenPc}, Quiet w.shared shared →
      Move lib cfg w { w with shared, listener } [] := fun h =>
    .quiet h rfl rfl rfl (fun _ h => absurd h List.not_mem_nil) (.stay rfl)
  simp only [World.next, World.emit]
  cases hpc : w.listener with
  | check => exact hquiet (Quiet.refl _)
  | exited => exact hquiet (Quiet.refl _)
  | receiving =>
      simp only [listenStep]
      cases i.recv with
      | again => exact hquiet (Quiet.refl _)
      | failed error =>
          refine hquiet ?_
          constructor <;> first | rfl | exact id | exact fun _ => rfl
      | datagram peer bytes =>
          simp only [receive]
          split
          · rename_i reason hrefusal
            exact .refused _ _ _ hrefusal (canonicalIp_idem peer)
          · rename_i hrefusal
            exact .accepted _ _ _ hrefusal (canonicalIp_idem peer)

theorem move_sender (w : World) (i : SenderInput) :
    Move lib cfg w (World.next lib cfg w (.sender i)) (World.emit lib cfg w (.sender i)) := by
  have hexpired : expired w.shared i.now = true → w.shared.stopAt.isSome = true := by
    unfold expired
    cases w.shared.stopAt <;> simp
  simp only [World.next, World.emit]
  cases hpc : w.sender.pc with
  | top =>
      simp only [senderStep, hpc]
      split
      · rename_i hstop
        have hsome : w.shared.stopAt.isSome = true := by
          cases hat : w.shared.stopAt with
          | none => simp [hat] at hstop
          | some at_ => rfl
        exact .goto (.leave (.inl (hpc ▸ rfl)) hsome)
      · split
        · rename_i hsession
          exact .goto (.offline (hpc ▸ rfl) (Option.isNone_iff_eq_none.mp hsession))
        · rename_i hsession
          exact .goto (.online (.inl ⟨hpc ▸ rfl, Option.isSome_iff_ne_none.mpr (by simpa using hsession)⟩))
  | resolving =>
      simp only [senderStep, hpc]
      exact .wander (Quiet.status ⟨rfl, rfl, rfl, rfl, rfl, rfl⟩ (by simp)) ⟨rfl, rfl, rfl⟩ (by simp)
        (.stay (hpc ▸ rfl))
  | lookup =>
      simp only [senderStep, hpc]
      split
      · exact .goto (.stay (hpc ▸ rfl))
      · split
        · exact .goto (.stay (hpc ▸ rfl))
        · exact .goto (.stay (hpc ▸ rfl))
        · exact .wander (Quiet.refl _) ⟨rfl, rfl, rfl⟩ (by simp [Event.isInternal]) (.stay (hpc ▸ rfl))
  | awaitCheck until_ =>
      simp only [senderStep, hpc]
      split <;> exact .goto (.stay (hpc ▸ rfl))
  | awaitRecv until_ =>
      simp only [senderStep, hpc]
      split
      · exact .goto (.lost (.inl (hpc ▸ rfl)))
      · split
        · exact .wander (Quiet.refl _) ⟨rfl, rfl, rfl⟩ (by simp [Event.isInternal]) (.stay (hpc ▸ rfl))
        · exact .wander (Quiet.refl _) ⟨rfl, rfl, rfl⟩ (by simp [Event.isInternal]) (.stay (hpc ▸ rfl))
        · exact .wander (Quiet.refl _) ⟨rfl, rfl, rfl⟩ (by simp [Event.isInternal]) (.stay (hpc ▸ rfl))
        · split <;> exact .goto (.stay (hpc ▸ rfl))
        · exact .wander (Quiet.refl _) ⟨rfl, rfl, rfl⟩ (by simp) (.stay (hpc ▸ rfl))
  | dial addresses =>
      simp only [senderStep, hpc]
      split
      · exact .goto (.lost (.inl (hpc ▸ rfl)))
      · exact .wander (Quiet.status ⟨rfl, rfl, rfl, rfl, rfl, rfl⟩ id) ⟨rfl, rfl, rfl⟩ (by simp)
          (.stay (hpc ▸ rfl))
  | connecting remote =>
      simp only [senderStep, hpc]
      split
      · exact .opened remote hpc
      · exact .connectFailed remote hpc
  | established session =>
      simp only [senderStep, hpc]
      exact .established session hpc (Quiet.status ⟨rfl, rfl, rfl, rfl, rfl, rfl⟩ id)
  | connectFailed error =>
      simp only [senderStep, hpc]
      split
      · rename_i h
        exact .goto (.leave (.inr (hpc ▸ rfl)) (hexpired h))
      · exact .goto (.stay (hpc ▸ rfl))
  | retry error =>
      simp only [senderStep, hpc]
      exact .wander (Quiet.status ⟨rfl, rfl, rfl, rfl, rfl, rfl⟩ id) ⟨rfl, rfl, rfl⟩ (by simp)
        (.stay (hpc ▸ rfl))
  | backoff =>
      simp only [senderStep, hpc]
      exact .wander (Quiet.refl _) ⟨rfl, rfl, rfl⟩ (by simp [Event.isInternal]) (.top (.inl (hpc ▸ rfl)))
  | polling =>
      simp only [senderStep, hpc]
      split
      · exact .goto (.lost (.inr (.inl (hpc ▸ rfl))))
      · rename_i session hsession
        split
        · exact .goto (.stay (hpc ▸ rfl))
        · rename_i hframe
          have hnone : w.sender.pendingFrame = none := by
            cases h : w.sender.pendingFrame with
            | none => rfl
            | some bytes => simp [h] at hframe
          split
          · exact .polled session _ hpc hsession hnone (.inr ⟨_, rfl⟩)
          · exact .polled session _ hpc hsession hnone (.inl rfl)
  | fetch =>
      simp only [senderStep, hpc]
      split
      · exact .goto (.stay (hpc ▸ rfl))
      · exact .goto (.online (.inr (hpc ▸ rfl)))
  | take =>
      simp only [senderStep, hpc]
      split
      · exact .goto (.lost (.inr (.inr (hpc ▸ rfl))))
      · exact .goto (.online (.inr (hpc ▸ rfl)))
      · rename_i session m rest hsession hqueue
        split
        · rename_i hlarge
          exact .oversized i session m rest hpc hsession hqueue hlarge
        · rename_i hfits
          exact .taken i session m rest hpc hsession hqueue (Nat.le_of_not_lt hfits)
  | writing =>
      simp only [senderStep, hpc]
      split
      · exact .goto (.stay (hpc ▸ rfl))
      · exact .goto (.lost (.inr (.inl (hpc ▸ rfl))))
      · rename_i bytes session hframe hsession
        split
        · rename_i hwrite
          exact .wrote i session bytes hpc hsession hframe (by simp [hwrite]) (.inl rfl)
        · rename_i hwrite
          split
          · exact .wrote i session bytes hpc hsession hframe (by simp [hwrite]) (.inr (.inr ⟨_, rfl⟩))
          · exact .wrote i session bytes hpc hsession hframe (by simp [hwrite]) (.inr (.inl rfl))
        · rename_i error hwrite
          exact .wrote i session bytes hpc hsession hframe (by simp [hwrite]) (.inr (.inr ⟨_, rfl⟩))
  | sent =>
      simp only [senderStep, hpc]
      exact .forwarded i hpc
  | pace =>
      simp only [senderStep, hpc]
      exact .wander (Quiet.refl _) ⟨rfl, rfl, rfl⟩ (by simp) (.stay (hpc ▸ rfl))
  | failed error =>
      simp only [senderStep, hpc]
      split
      · exact .goto (.lost (.inr (.inl (hpc ▸ rfl))))
      · rename_i session hsession
        have := @Move.closed lib cfg w _ _ (.inr ⟨error, hpc, rfl, rfl⟩)
        simpa only [hsession, Option.map_some, Option.toList_some] using this
  | failedStatus error =>
      simp only [senderStep, hpc]
      exact .wander (Quiet.status ⟨rfl, rfl, rfl, rfl, rfl, rfl⟩ (by simp)) ⟨rfl, rfl, rfl⟩ (by simp)
        (.stay (hpc ▸ rfl))
  | failedPause =>
      simp only [senderStep, hpc]
      exact .wander (Quiet.refl _) ⟨rfl, rfl, rfl⟩ (by simp [Event.isInternal]) (.top (.inl (hpc ▸ rfl)))
  | idle =>
      simp only [senderStep, hpc]
      exact .wander (Quiet.refl _) ⟨rfl, rfl, rfl⟩ (by simp [Event.isInternal]) (.top (.inr (hpc ▸ rfl)))
  | closing =>
      simp only [senderStep, hpc]
      exact .closed (.inl ⟨rfl, hpc, rfl⟩)
  | drain =>
      simp only [senderStep, hpc]
      exact .drained hpc
  | done =>
      simp only [senderStep, hpc]
      exact .goto (.stay (hpc ▸ rfl))
  | panicked =>
      simp only [senderStep, hpc]
      exact .goto (.stay (hpc ▸ rfl))

/-- Only the sender moves the sender. -/
theorem World.next_sender_eq (w : World) {action : Action} (h : ∀ i, action ≠ .sender i) :
    (World.next lib cfg w action).sender = w.sender := by
  cases action with
  | sender i => exact absurd rfl (h i)
  | listener i => rfl
  | stop now => rfl
  | join =>
      simp only [World.next]
      split <;> rfl

/-- What is read off the steps of the sender alone is proved from these steps alone. -/
theorem sender_induction {ε : Type} (read : World → Action → List ε)
    (hquiet : ∀ w action, (∀ i, action ≠ .sender i) → read w action = []) {P : Sender → List ε → Prop}
    (hstart : P (Sender.start cfg boot) [])
    (hstep : ∀ w i events, P w.sender events →
      P (senderStep lib cfg i w.shared w.sender).sender (events ++ read w (.sender i)))
    (actions : List Action) :
    let machine : Machine World Action ε := { relay lib cfg boot with emit := read }
    P (machine.run actions).sender (machine.trace actions) := by
  intro machine
  apply machine.induction (P := fun w events => P w.sender events) hstart
  intro w events action h
  by_cases hsender : ∃ i, action = .sender i
  · obtain ⟨i, rfl⟩ := hsender
    exact hstep w i events h
  · have hother := not_exists.mp hsender
    show P (World.next lib cfg w action).sender (events ++ read w action)
    rw [World.next_sender_eq w hother, hquiet w action hother, List.append_nil]
    exact h

/-- Every action of the relay is one of the moves. -/
theorem move_next (w : World) (action : Action) :
    Move lib cfg w (World.next lib cfg w action) (World.emit lib cfg w action) := by
  have hquiet : ∀ {shared : State}, Quiet w.shared shared → Move lib cfg w { w with shared } [] :=
    fun h => .quiet h rfl rfl rfl (fun _ h => absurd h List.not_mem_nil) (.stay rfl)
  cases action with
  | listener i => exact move_listener w i
  | sender i => exact move_sender w i
  | stop now =>
      refine hquiet ?_
      unfold stopRequest
      split
      · constructor <;> first | rfl | exact id | exact fun _ => rfl
      · exact Quiet.refl _
  | join =>
      simp only [World.next, World.emit]
      split
      · exact hquiet (Quiet.status ⟨rfl, rfl, rfl, rfl, rfl, rfl⟩ (by simp))
      · exact hquiet (Quiet.refl _)

end

end SyslogDtlsAgent
