import SyslogDtlsAgent.Proof.Relay.Held
import SyslogDtlsAgent.Proof.Sources.Books

/-!
# The ledger by source over whole runs

The outstanding messages of `SourceBooks` are those in the queue, and the sightings are the
addresses of the datagrams received so far.
-/

namespace SyslogDtlsAgent

open Library

variable {lib : External} {cfg : Config} {boot : Boot}

def Event.sighting : Event → Option IpAddr
  | .received ip _ => some ip
  | _ => none

/-- The canonical source addresses of the datagrams received, in order. -/
def sightings (events : List Event) : List IpAddr := events.filterMap Event.sighting

/-- The canonical address of the datagram that an action brings, if the listener waits for one. -/
def World.incoming (w : World) : Action → Option IpAddr
  | .listener i =>
      match w.listener, i.recv with
      | .receiving, .datagram peer _ => some (canonicalIp peer)
      | _, _ => none
  | _ => none

/-- The relay, heard by the datagrams it gets. -/
def incoming (lib : External) (cfg : Config) (boot : Boot) : Machine World Action IpAddr :=
  { relay lib cfg boot with emit := fun w action => (w.incoming action).toList }

theorem senderStep_sightings (i : SenderInput) (s : State) (t : Sender) :
    sightings (senderStep lib cfg i s t).events = [] := by
  cases hpc : t.pc with
  | sent =>
      simp only [senderStep, hpc]
      cases s.queue <;> rfl
  | closing =>
      simp only [senderStep, hpc]
      cases t.session <;> rfl
  | drain =>
      simp only [senderStep, hpc]
      simp [sightings, Event.sighting]
  | _ =>
      simp only [senderStep, hpc]
      repeat' split
      all_goals rfl

/-- One step reports the datagram it brought, and nothing else. -/
theorem sightings_emit (w : World) (action : Action) :
    sightings (World.emit lib cfg w action) = (w.incoming action).toList := by
  cases action with
  | listener i =>
      simp only [World.emit, World.incoming]
      cases w.listener with
      | check | exited => rfl
      | receiving =>
          cases hrecv : i.recv with
          | again | failed => simp [listenStep, hrecv, sightings]
          | datagram peer bytes =>
              simp only [listenStep, hrecv, receive]
              split <;> rfl
  | sender i => exact senderStep_sightings i w.shared w.sender
  | stop | join => rfl

theorem sightings_trace (actions : List Action) :
    sightings ((relay lib cfg boot).trace actions) = (incoming lib cfg boot).trace actions :=
  (relay lib cfg boot).traceFrom_filterMap (N := incoming lib cfg boot) rfl sightings_emit _ actions

theorem sightings_append (left right : List Event) :
    sightings (left ++ right) = sightings left ++ sightings right :=
  List.filterMap_append

def State.queuedSources (s : State) : List IpAddr := s.queue.map Message.source

structure SourceLedger (cfg : Config) (s : State) (events : List Event) : Prop where
  books : SourceBooks cfg s.queuedSources (sightings events) s.sources
  allowed : ∀ ip ∈ s.queuedSources, sourceAllowed cfg ip = true
  received : s.status.messagesReceived = (sightings events).length

theorem SourceLedger.start : SourceLedger cfg (State.start cfg boot) [] :=
  ⟨SourceBooks.empty, nofun, rfl⟩

/-- A move without a datagram that leaves the queue and the sources alone. -/
theorem SourceLedger.aside {s s' : State} {before events : List Event} (h : SourceLedger cfg s before)
    (hevents : ∀ e ∈ events, e.sighting = none) (hqueue : s'.queue = s.queue)
    (hsources : s'.sources = s.sources)
    (hreceived : s'.status.messagesReceived = s.status.messagesReceived) :
    SourceLedger cfg s' (before ++ events) := by
  have hnone : sightings events = [] := List.filterMap_eq_nil_iff.mpr hevents
  have hqueued : s'.queuedSources = s.queuedSources := by rw [State.queuedSources, hqueue, State.queuedSources]
  constructor
  · rw [sightings_append, hnone, List.append_nil, hqueued, hsources]
    exact h.books
  · rw [hqueued]
    exact h.allowed
  · rw [sightings_append, hnone, List.append_nil, hreceived, h.received]

theorem SourceLedger.refused {s : State} {before : List Event} {ip : IpAddr} {reason : Drop}
    {wallMs : Nat} (h : SourceLedger cfg s before) :
    SourceLedger cfg ((s.countReceived ip (sourceAllowed cfg ip) wallMs).refuse ip reason)
      (before ++ [.received ip (sourceAllowed cfg ip), .refused ip reason]) where
  books := by
    rw [sightings_append]
    exact (h.books.received ip wallMs).dropped
  allowed := h.allowed
  received := by
    rw [sightings_append, List.length_append, ← h.received]
    rfl

theorem SourceLedger.accepted {s : State} {before : List Event} {ip : IpAddr} {payload : Bytes}
    {wallMs : Nat} (h : SourceLedger cfg s before) (hallowed : sourceAllowed cfg ip = true) :
    SourceLedger cfg ((s.countReceived ip (sourceAllowed cfg ip) wallMs).push ⟨payload, ip⟩)
      (before ++ [.received ip (sourceAllowed cfg ip), .accepted ⟨payload, ip⟩]) := by
  have hqueued : ((s.countReceived ip (sourceAllowed cfg ip) wallMs).push ⟨payload, ip⟩).queuedSources =
      s.queuedSources ++ [ip] := by
    simp [State.queuedSources, State.push, State.countReceived]
  constructor
  · rw [hqueued, sightings_append]
    exact (h.books.received ip wallMs).perm (List.perm_append_singleton ip s.queuedSources).symm
  · intro other hother
    rw [hqueued, List.mem_append, List.mem_singleton] at hother
    rcases hother with hother | rfl
    · exact h.allowed other hother
    · exact hallowed
  · rw [sightings_append, List.length_append, ← h.received]
    rfl

theorem SourceLedger.finishFront {s : State} {before events : List Event} {m : Message}
    {rest : List Message} {forwarded : Bool} {now : Instant} {wallMs : Nat}
    (h : SourceLedger cfg s before) (hqueue : s.queue = m :: rest)
    (hevents : ∀ e ∈ events, e.sighting = none) :
    SourceLedger cfg (finishFront s forwarded now wallMs) (before ++ events) := by
  have hnone : sightings events = [] := List.filterMap_eq_nil_iff.mpr hevents
  have hqueued : s.queuedSources = m.source :: rest.map Message.source := by
    rw [State.queuedSources, hqueue, List.map_cons]
  have hbooks := h.books
  have hallowed := h.allowed
  rw [hqueued] at hbooks hallowed
  have hrest : ∀ ip ∈ rest.map Message.source, sourceAllowed cfg ip = true := fun ip hip =>
    hallowed ip (List.mem_cons_of_mem _ hip)
  constructor
  · rw [sightings_append, hnone, List.append_nil, State.queuedSources, finishFront_queue hqueue,
      finishFront_sources hqueue]
    cases forwarded with
    | true => exact hbooks.forwarded (hallowed _ List.mem_cons_self) (s.elapsedSecs now)
    | false => exact hbooks.dropped
  · rw [State.queuedSources, finishFront_queue hqueue]
    exact hrest
  · rw [sightings_append, hnone, List.append_nil, ← h.received, finishFront_received hqueue]

/-- The drain settles every outstanding message as dropped. -/
theorem SourceBooks.drained {sighted : List IpAddr} {queue : List Message} {sources : Sources}
    (h : SourceBooks cfg (queue.map Message.source) sighted sources) :
    SourceBooks cfg [] sighted (queue.foldl (fun sources m => sources.dropped m.source) sources) := by
  induction queue generalizing sources with
  | nil => exact h
  | cons m rest ih => exact ih h.dropped

theorem SourceLedger.move {w w' : World} {before events : List Event}
    (h : SourceLedger cfg w.shared before) (hheld : Held w) (hmove : Move lib cfg w w' events) :
    SourceLedger cfg w'.shared (before ++ events) := by
  cases hmove with
  | quiet shared session pendingFrame sessions internal place =>
      refine h.aside (fun e he => ?_) shared.queue shared.sources shared.messagesReceived
      have := internal e he
      cases e <;> first | rfl | cases this
  | refused ip payload wallMs hrefusal hip => exact h.refused
  | accepted ip payload wallMs hrefusal hip => exact h.accepted (refusal_eq_none.mp hrefusal).1
  | established session hpc hshared =>
      exact h.aside (by simp [Event.sighting]) hshared.queue hshared.sources hshared.messagesReceived
  | oversized i session m rest hpc hsession hqueue hlarge =>
      exact h.finishFront hqueue (by simp [Event.sighting])
  | forwarded i hpc =>
      obtain ⟨m, rest, hqueue, -⟩ := hheld.sent_head hpc
      exact h.finishFront hqueue (by simp [hqueue, Event.sighting])
  | drained hpc =>
      have hnone : sightings (w.shared.queue.map fun m => Event.finished m .shutdown) = [] := by
        simp [sightings, Event.sighting]
      constructor
      · rw [sightings_append, hnone, List.append_nil]
        exact h.books.drained
      · exact nofun
      · rw [sightings_append, hnone, List.append_nil, ← h.received]
        rfl
  | closed hnext =>
      refine h.aside (fun e he => ?_) rfl rfl rfl
      obtain ⟨session, -, rfl⟩ := Option.map_eq_some_iff.mp (Option.mem_toList.mp he)
      rfl
  | connectFailed => exact h.aside (by simp [Event.sighting]) rfl rfl rfl
  | opened => exact h.aside (by simp [Event.sighting]) rfl rfl rfl
  | polled => exact h.aside (by simp [Event.sighting]) rfl rfl rfl
  | taken => exact h.aside (by simp [Event.sighting]) rfl rfl rfl
  | wrote => exact h.aside (by simp [Event.sighting]) rfl rfl rfl

theorem sourceLedger (actions : List Action) :
    SourceLedger cfg ((relay lib cfg boot).run actions).shared ((relay lib cfg boot).trace actions) := by
  have hboth := (relay lib cfg boot).induction
    (P := fun w events => Held w ∧ SourceLedger cfg w.shared events) ⟨Held.start, SourceLedger.start⟩
    (fun w events action h => ⟨h.1.move (move_next w action), h.2.move h.1 (move_next w action)⟩) actions
  exact hboth.2

/-- The rows of every snapshot: whose they are, what each of them and their total say, and that an
address without a row never gets one once a datagram from it was seen. What is seen are the canonical addresses
of the datagrams the listener gets, in order. -/
theorem source_rows_balance (lib : External) (cfg : Config) (boot : Boot) (actions : List Action)
    (now : Instant) :
    let relay := relay lib cfg boot
    let w := relay.run actions
    let seen := sightings (relay.trace actions)
    let status := snapshot w.shared now
    let tracked := status.sources.map SourceStatus.ip
    seen = (incoming lib cfg boot).trace actions ∧
      tracked.Nodup ∧
      tracked.Perm (seen.eraseDups.take 256) ∧
      (∀ row ∈ status.sources,
        row.messagesReceived = row.messagesForwarded + row.messagesDropped +
          w.shared.queue.countP (fun m => m.source = row.ip) ∧
        row.allowed = sourceAllowed cfg row.ip ∧
        (row.allowed = false → row.messagesForwarded = 0 ∧ row.messagesReceived = row.messagesDropped)) ∧
      (status.sources.map SourceStatus.messagesReceived).sum + status.untrackedSourceMessages =
        status.messagesReceived ∧
      status.untrackedSourceMessages = seen.countP (fun ip => ip ∉ tracked) ∧
      ∀ (later : List Action) (then_ : Instant),
        let tracked' := (snapshot (relay.run (actions ++ later)).shared then_).sources.map SourceStatus.ip
        (∀ ip ∈ tracked, ip ∈ tracked') ∧ ∀ ip ∈ seen, ip ∉ tracked → ip ∉ tracked' := by
  intro relay w seen status tracked
  have h : SourceLedger cfg w.shared (relay.trace actions) := sourceLedger actions
  have htracked : tracked.Perm (admitted sourceLimit seen) := h.books.rows_ip _
  have hmem : ∀ ip, ip ∈ tracked ↔ ip ∈ admitted sourceLimit seen := fun ip => htracked.mem_iff
  refine ⟨sightings_trace actions, htracked.nodup_iff.mpr (nodup_admitted _ _), htracked, ?_, ?_, ?_, ?_⟩
  · intro row hrow
    have hbooks : RowBooks cfg w.shared.queuedSources row.ip row := h.books.rows_books hrow
    have hcount : w.shared.queuedSources.count row.ip =
        w.shared.queue.countP (fun m => m.source = row.ip) := by
      rw [State.queuedSources, List.count, List.countP_map]
      rfl
    refine ⟨hcount ▸ hbooks.balance, hbooks.allowed, fun hdenied => ?_⟩
    rw [hbooks.allowed] at hdenied
    have hnone : w.shared.queuedSources.count row.ip = 0 := by
      refine List.count_eq_zero.mpr fun hqueued => ?_
      rw [h.allowed row.ip hqueued] at hdenied
      cases hdenied
    have hbalance := hbooks.balance
    rw [hnone, hbooks.denied hdenied] at hbalance
    exact ⟨hbooks.denied hdenied, by omega⟩
  · exact (h.books.rows_total _).trans h.received.symm
  · simp only [hmem]
    exact h.books.untracked
  · intro later then_ tracked'
    have hlater : SourceLedger cfg (relay.run (actions ++ later)).shared (relay.trace (actions ++ later)) :=
      sourceLedger (actions ++ later)
    set more := sightings (relay.traceFrom w later)
    have hmem' : ∀ ip, ip ∈ tracked' ↔ ip ∈ admitted sourceLimit (seen ++ more) := by
      intro ip
      rw [← sightings_append, ← Machine.trace_append]
      exact (hlater.books.rows_ip _).mem_iff
    refine ⟨fun ip hip => ?_, fun ip hseen hip => ?_⟩
    · rw [hmem']
      exact (admitted_grows sourceLimit seen more).subset ((hmem ip).mp hip)
    · rw [hmem']
      exact not_admitted_forever hseen (fun hin => hip ((hmem ip).mpr hin)) more

end SyslogDtlsAgent
