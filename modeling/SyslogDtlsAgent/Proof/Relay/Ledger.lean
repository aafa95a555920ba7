import SyslogDtlsAgent.Proof.Relay.Held

/-!
# Conservation of messages

The counters of the status record against the queue. Each move changes both sides of every equation
by the same amount; the only places where that needs more than the move itself are the end of a
write, where `Held` supplies the head, and what happens after the drain.
-/

namespace SyslogDtlsAgent

open Library

variable {lib : External} {cfg : Config} {boot : Boot}

def queuedBytes (queue : List Message) : Nat := (queue.map fun m => m.payload.length).sum

@[simp] theorem queuedBytes_nil : queuedBytes [] = 0 := rfl

@[simp] theorem queuedBytes_cons (m : Message) (rest : List Message) :
    queuedBytes (m :: rest) = m.payload.length + queuedBytes rest := by
  simp only [queuedBytes, List.map_cons, List.sum_cons]

@[simp] theorem queuedBytes_concat (queue : List Message) (m : Message) :
    queuedBytes (queue ++ [m]) = queuedBytes queue + m.payload.length := by
  simp only [queuedBytes, List.map_append, List.sum_append, List.map_cons, List.map_nil,
    List.sum_cons, List.sum_nil, Nat.add_zero]

@[simp] theorem Drops.total_add (drops : Drops) (reason : Drop) :
    (drops.add reason).total = drops.total + 1 := by
  cases reason <;> simp only [Drops.add, Drops.total] <;> omega

/-- The books of the relay. -/
structure Ledger (cfg : Config) (s : State) : Prop where
  received : s.status.messagesReceived =
    s.status.messagesForwarded + s.status.messagesDropped + s.status.queueDepth
  dropped : s.status.messagesDropped = s.status.drops.total
  depth : s.status.queueDepth = s.queue.length
  depthBound : s.queue.length ≤ cfg.queue.maxMessages
  bytes : s.status.queueBytes = queuedBytes s.queue
  bytesBound : queuedBytes s.queue ≤ cfg.queue.maxBytes
  inFlight : s.status.inFlight = true → s.queue ≠ []

theorem Ledger.start : Ledger cfg (State.start cfg boot) := by
  constructor <;> simp [State.start, Status.default, Drops.total]

theorem Ledger.quiet {s s' : State} (h : Ledger cfg s) (hquiet : Quiet s s') : Ledger cfg s' where
  received := by
    rw [hquiet.messagesReceived, hquiet.messagesForwarded, hquiet.messagesDropped, hquiet.queueDepth]
    exact h.received
  dropped := by
    rw [hquiet.messagesDropped, hquiet.drops]
    exact h.dropped
  depth := by
    rw [hquiet.queueDepth, hquiet.queue]
    exact h.depth
  depthBound := hquiet.queue ▸ h.depthBound
  bytes := by
    rw [hquiet.queueBytes, hquiet.queue]
    exact h.bytes
  bytesBound := hquiet.queue ▸ h.bytesBound
  inFlight hflight := hquiet.queue ▸ h.inFlight (hquiet.inFlight hflight)

theorem Ledger.refused {s : State} {ip : IpAddr} {allowed : Bool} {wallMs : Nat} {reason : Drop}
    (h : Ledger cfg s) : Ledger cfg ((s.countReceived ip allowed wallMs).refuse ip reason) where
  received := by
    have := h.received
    simp only [State.refuse, State.countReceived]
    omega
  dropped := by
    simp only [State.refuse, State.countReceived, Drops.total_add, h.dropped]
  depth := h.depth
  depthBound := h.depthBound
  bytes := h.bytes
  bytesBound := h.bytesBound
  inFlight := h.inFlight

theorem Ledger.accepted {s : State} {ip : IpAddr} {payload : Bytes} {allowed : Bool} {wallMs : Nat}
    (h : Ledger cfg s)
    (hrefusal : refusal lib cfg (s.countReceived ip allowed wallMs) ip payload = none) :
    Ledger cfg ((s.countReceived ip allowed wallMs).push ⟨payload, ip⟩) := by
  obtain ⟨-, -, -, -, hdepth, hbytes⟩ := refusal_eq_none.mp hrefusal
  simp only [State.countReceived] at hdepth hbytes
  have hreceived := h.received
  have hqueued := h.bytes
  have hlength := h.depth
  constructor
  · simp only [State.push, State.countReceived]
    omega
  · exact h.dropped
  · simp only [State.push, State.countReceived, List.length_append, List.length_singleton]
  · simp only [State.push, State.countReceived, List.length_append, List.length_singleton]
    omega
  · simp only [State.push, State.countReceived, queuedBytes_concat, hqueued]
  · simp only [State.push, State.countReceived, queuedBytes_concat]
    omega
  · intro _
    simp [State.push]

/-- Removing the head keeps the books, whether it was sent or does not fit. -/
theorem Ledger.finishFront {s : State} {m : Message} {rest : List Message} {forwarded : Bool}
    {now : Instant} {wallMs : Nat} (h : Ledger cfg s) (hqueue : s.queue = m :: rest) :
    Ledger cfg (finishFront s forwarded now wallMs) := by
  have hreceived := h.received
  have hdropped := h.dropped
  have hdepth := h.depth
  have hdepthBound := h.depthBound
  have hbytes := h.bytes
  have hbytesBound := h.bytesBound
  simp only [hqueue, List.length_cons, queuedBytes_cons] at hdepth hdepthBound hbytes hbytesBound
  cases forwarded <;>
    refine ⟨?_, ?_, ?_, ?_, ?_, ?_, ?_⟩ <;>
    simp only [SyslogDtlsAgent.finishFront, hqueue, if_true, Bool.false_eq_true, if_false, Drops.total,
      false_implies] at hdropped ⊢ <;>
    omega

theorem Ledger.drained {s : State} (h : Ledger cfg s) : Ledger cfg (drain s) := by
  have hreceived := h.received
  have hdropped := h.dropped
  have hdepth := h.depth
  simp only [Drops.total] at hdropped
  constructor <;> simp [drain, Drops.total] <;> omega

theorem Ledger.move {w w' : World} {events : List Event} (h : Ledger cfg w.shared) (hheld : Held w)
    (hmove : Move lib cfg w w' events) : Ledger cfg w'.shared := by
  cases hmove with
  | quiet shared => exact h.quiet shared
  | refused => exact h.refused
  | accepted ip payload wallMs hrefusal => exact h.accepted hrefusal
  | connectFailed => exact h
  | opened => exact h
  | established session hpc hshared => exact h.quiet hshared
  | polled => exact h
  | oversized i session m rest hpc hsession hqueue => exact h.finishFront hqueue
  | taken i session m rest hpc hsession hqueue =>
      exact ⟨h.received, h.dropped, h.depth, h.depthBound, h.bytes, h.bytesBound, fun _ => by simp [hqueue]⟩
  | wrote => exact h
  | forwarded i hpc =>
      obtain ⟨m, rest, hqueue, -⟩ := hheld.sent_head hpc
      exact h.finishFront hqueue
  | closed => exact h
  | drained => exact h.drained

/-- The books balance throughout every run. -/
theorem ledger (actions : List Action) : Ledger cfg ((relay lib cfg boot).run actions).shared := by
  have hboth := (relay lib cfg boot).invariant (P := fun w => Held w ∧ Ledger cfg w.shared)
    ⟨Held.start, Ledger.start⟩
    (fun w action h => ⟨h.1.move (move_next w action), h.2.move h.1 (move_next w action)⟩) actions
  exact hboth.2

/-- A sender that has finished stays finished. -/
theorem Move.done {w w' : World} {events : List Event} (hmove : Move lib cfg w w' events)
    (hdone : w.sender.pc.place = .done) : w'.sender.pc.place = .done := by
  cases hmove with
  | quiet shared session pendingFrame sessions internal place => exact (place.fixed_iff .done rfl).mpr hdone
  | refused => exact hdone
  | accepted => exact hdone
  | drained => rfl
  | connectFailed remote hpc => simp [hpc, Pc.place] at hdone
  | opened remote hpc => simp [hpc, Pc.place] at hdone
  | established session hpc => simp [hpc, Pc.place] at hdone
  | polled session result hpc => simp [hpc, Pc.place] at hdone
  | oversized i session m rest hpc => simp [hpc, Pc.place] at hdone
  | taken i session m rest hpc => simp [hpc, Pc.place] at hdone
  | wrote i session bytes hpc => simp [hpc, Pc.place] at hdone
  | forwarded i hpc => simp [hpc, Pc.place] at hdone
  | closed hnext => rcases hnext with ⟨-, hpc, -⟩ | ⟨error, hpc, -, -⟩ <;> simp [hpc, Pc.place] at hdone

/-- After the drain the queue is empty for good. -/
theorem drained_forever {actions : List Action} (later : List Action)
    (hdone : ((relay lib cfg boot).run actions).sender.pc = .done) :
    ((relay lib cfg boot).run (actions ++ later)).shared.queue = [] := by
  have hlater := (relay lib cfg boot).invariant_from (P := fun w => w.sender.pc.place = .done)
    (fun w action h => (move_next w action).done h) (by rw [hdone]; rfl) later
  rw [← Machine.run_append] at hlater
  exact (held (actions ++ later)).done hlater

/-- Every status a snapshot can return balances, and once the sender has finished nothing is queued
in any later status. -/
theorem snapshot_conserves (lib : External) (cfg : Config) (boot : Boot) (actions : List Action)
    (now : Instant) :
    let w := (relay lib cfg boot).run actions
    let status := snapshot w.shared now
    status.messagesReceived = status.messagesForwarded + status.messagesDropped + status.queueDepth ∧
      status.messagesDropped = status.drops.invalid + status.drops.oversized +
        status.drops.queueFull + status.drops.shutdown + status.drops.sourceDenied ∧
      status.queueDepth = w.shared.queue.length ∧
      w.shared.queue.length ≤ cfg.queue.maxMessages ∧
      status.queueBytes = (w.shared.queue.map fun m => m.payload.length).sum ∧
      (w.shared.queue.map fun m => m.payload.length).sum ≤ cfg.queue.maxBytes ∧
      (status.inFlight = true → w.shared.queue ≠ []) ∧
      (w.sender.pc = .done → ∀ (later : List Action) (then_ : Instant),
        let after := snapshot ((relay lib cfg boot).run (actions ++ later)).shared then_
        after.queueDepth = 0 ∧ after.queueBytes = 0) := by
  intro w status
  have h : Ledger cfg w.shared := ledger actions
  refine ⟨h.received, h.dropped, h.depth, h.depthBound, h.bytes, h.bytesBound, h.inFlight, ?_⟩
  intro hdone later then_ after
  have hempty := drained_forever later hdone
  have hafter : Ledger cfg ((relay lib cfg boot).run (actions ++ later)).shared := ledger (actions ++ later)
  have hdepth := hafter.depth
  have hbytes := hafter.bytes
  rw [hempty] at hdepth hbytes
  exact ⟨hdepth, hbytes⟩

end SyslogDtlsAgent
