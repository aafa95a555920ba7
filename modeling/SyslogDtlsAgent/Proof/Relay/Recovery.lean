import SyslogDtlsAgent.Proof.Relay.Fifo
import SyslogDtlsAgent.Proof.Relay.Shutdown

/-!
# Delivery once the network works

Whatever a relay has been through, as long as nobody has stopped it and from some moment on every call of the
sender succeeds, it forwards all it has queued. `toSend` counts the steps the sender is from having removed
the head of its queue; a step that meets no obstacle lowers it, or removes the head.
-/

namespace SyslogDtlsAgent

open Library

variable {lib : External} {cfg : Config} {boot : Boot}

/-- How many steps the sender is from having forwarded the head of its queue, if nothing is in its way. -/
def Sender.toSend (t : Sender) : Nat :=
  match t.pc with
  | .sent => 1
  | .writing => if t.pendingFrame.isSome then 2 else 8
  | .take => 3
  | .fetch => 4
  | .polling => 5
  | .top => if t.session.isSome then 6 else 13
  | .established _ => 6
  | .idle | .connecting _ => 7
  | .pace | .dial _ => 8
  | .awaitRecv _ => 9
  | .awaitCheck _ => 10
  | .lookup => 11
  | .resolving => 12
  | .backoff | .failedPause => 14
  | .retry _ | .failedStatus _ => 15
  | .connectFailed _ | .failed _ => 16
  | .closing | .drain | .done | .panicked => 0

def LookupRecv.found : LookupRecv → Bool
  | .result (.ok (_ :: _)) => true
  | _ => false

def wholeWrite : Except String WriteOutcome → Bool
  | .ok .sent => true
  | _ => false

/-- The call of the sender's next step succeeds, and the pause between two writes is over. -/
def World.favours (w : World) (i : SenderInput) : Bool :=
  match w.sender.pc with
  | .lookup => i.spawn.isOk
  | .awaitRecv _ => i.recv.found
  | .connecting _ => i.connect.isOk
  | .polling => i.poll.isOk
  | .fetch => decide (w.sender.nextSend ≤ i.now)
  | .take => w.shared.queue.head?.all fun m => decide ((frame m.payload).length ≤ i.maxPlaintext)
  | .writing => wholeWrite i.write
  | _ => true

/-- The world lets the action go ahead: nobody has stopped the relay, and nothing gets in the way of its
sender. -/
def World.favoursAction (w : World) : Action → Bool
  | .sender i => w.shared.stopAt.isNone && w.favours i
  | _ => w.shared.stopAt.isNone

def World.favourable (lib : External) (cfg : Config) (w : World) : List Action → Bool
  | [] => w.shared.stopAt.isNone
  | action :: rest => w.favoursAction action && (World.next lib cfg w action).favourable lib cfg rest

theorem LookupRecv.exists_of_found {recv : LookupRecv} (h : recv.found = true) :
    ∃ address more, recv = .result (.ok (address :: more)) := by
  unfold LookupRecv.found at h
  split at h
  · rename_i address more
    exact ⟨address, more, rfl⟩
  · cases h

theorem eq_sent_of_wholeWrite {write : Except String WriteOutcome} (h : wholeWrite write = true) :
    write = .ok .sent := by
  unfold wholeWrite at h
  split at h
  · rfl
  · cases h

theorem World.favoursAction_stopAt {w : World} {action : Action} (h : w.favoursAction action = true) :
    w.shared.stopAt = none := by
  cases action with
  | sender i => exact Option.isNone_iff_eq_none.mp (Bool.and_eq_true_iff.mp h).1
  | _ => exact Option.isNone_iff_eq_none.mp h

theorem Sender.toSend_le (t : Sender) : t.toSend ≤ 16 := by
  unfold Sender.toSend
  cases t.pc with
  | writing | top => simp only; split <;> omega
  | _ => simp only; omega

theorem Sound.toSend_pos {w : World} (h : Sound w) (hstop : w.shared.stopAt = none) : 0 < w.sender.toSend := by
  have hleaving := h.held.leaving
  have hsupplied := h.supplied
  unfold Sender.toSend
  cases hpc : w.sender.pc with
  | closing | drain | done =>
      rw [hpc, hstop] at hleaving
      cases hleaving rfl
  | panicked =>
      rw [hpc] at hsupplied
      exact hsupplied.elim
  | writing | top => simp only; split <;> omega
  | _ => simp only; omega

/-- What a step does that nothing gets in the way of, with `m` at the head of the queue. -/
inductive Advance (w : World) (m : Message) (rest : List Message) (step : SenderStep) : Prop where
  | closer (hqueue : step.state.queue = m :: rest) (hgone : departures step.events = [])
      (hcloser : step.sender.toSend < w.sender.toSend)
  | forwarded (hqueue : step.state.queue = rest) (hgone : departures step.events = [(m, .forwarded)])

theorem Sound.advance {w : World} (h : Sound w) {host : String} (hhost : normalizeName lib cfg.remote.host = .ok host)
    (hstop : w.shared.stopAt = none) {m : Message} {rest : List Message} (hqueue : w.shared.queue = m :: rest)
    {i : SenderInput} (hfavours : w.favours i = true) : Advance w m rest (senderStep lib cfg i w.shared w.sender) := by
  have hfits := h.held.fits
  have hsupplied := h.supplied
  have hpositive := h.toSend_pos hstop
  have hexpired : expired w.shared i.now = false := by rw [expired, hstop, Option.any_none]
  unfold World.favours at hfavours
  cases hpc : w.sender.pc with
  | top =>
      simp only [senderStep, hpc, hstop, Option.any_none, Bool.false_eq_true, if_false]
      cases hsession : w.sender.session with
      | none =>
          refine .closer hqueue rfl ?_
          simp [Sender.toSend, hpc, hsession]
      | some session =>
          refine .closer hqueue rfl ?_
          simp [Sender.toSend, hpc, hsession]
  | resolving =>
      simp only [senderStep, hpc]
      exact .closer hqueue rfl (by simp [Sender.toSend, hpc])
  | lookup =>
      rw [hpc] at hfavours
      obtain ⟨_, hspawn⟩ : ∃ value, i.spawn = .ok value := exists_of_isOk hfavours
      simp only [senderStep, hpc]
      split
      · exact .closer hqueue rfl (by simp [Sender.toSend, hpc])
      · rw [hhost, hspawn]
        exact .closer hqueue rfl (by simp [Sender.toSend, hpc])
  | awaitCheck until_ =>
      simp only [senderStep, hpc, hexpired, Bool.false_eq_true, if_false]
      exact .closer hqueue rfl (by simp [Sender.toSend, hpc])
  | awaitRecv until_ =>
      rw [hpc] at hfavours hsupplied
      obtain ⟨address, more, hrecv⟩ := LookupRecv.exists_of_found hfavours
      obtain ⟨worker, hworker⟩ := Option.isSome_iff_exists.mp hsupplied
      simp only [senderStep, hpc, hworker, hrecv]
      exact .closer hqueue rfl (by simp [Sender.toSend, hpc])
  | dial addresses =>
      rw [hpc] at hsupplied
      have hlt : w.sender.attempts % addresses.length < addresses.length :=
        Nat.mod_lt _ (List.length_pos_iff.mpr hsupplied)
      simp only [senderStep, hpc, List.getElem?_eq_getElem hlt]
      exact .closer hqueue rfl (by simp [Sender.toSend, hpc])
  | connecting remote =>
      rw [hpc] at hfavours
      obtain ⟨_, hconnect⟩ : ∃ value, i.connect = .ok value := exists_of_isOk hfavours
      simp only [senderStep, hpc, hconnect]
      exact .closer hqueue rfl (by simp [Sender.toSend, hpc])
  | established session =>
      simp only [senderStep, hpc]
      exact .closer hqueue rfl (by simp [Sender.toSend, hpc])
  | connectFailed error =>
      simp only [senderStep, hpc, hexpired, Bool.false_eq_true, if_false]
      exact .closer hqueue rfl (by simp [Sender.toSend, hpc])
  | retry error =>
      simp only [senderStep, hpc]
      exact .closer hqueue rfl (by simp [Sender.toSend, hpc])
  | backoff | failedPause =>
      rw [hpc] at hfits
      have hsession : w.sender.session = none := hfits.1
      simp only [senderStep, hpc]
      exact .closer hqueue rfl (by simp [Sender.toSend, hpc, hsession])
  | polling =>
      rw [hpc] at hfits hfavours
      obtain ⟨_, hpoll⟩ : ∃ value, i.poll = .ok value := exists_of_isOk hfavours
      obtain ⟨session, hsession⟩ := Option.isSome_iff_exists.mp hfits
      simp only [senderStep, hpc, hsession]
      split
      · rename_i hframe
        exact .closer hqueue rfl (by simp [Sender.toSend, hpc, hframe])
      · rw [hpoll]
        exact .closer hqueue rfl (by simp [Sender.toSend, hpc])
  | fetch =>
      rw [hpc] at hfavours
      simp only [senderStep, hpc]
      rw [if_pos (of_decide_eq_true hfavours)]
      exact .closer hqueue rfl (by simp [Sender.toSend, hpc])
  | take =>
      rw [hpc] at hfits hfavours
      obtain ⟨session, hsession⟩ := Option.isSome_iff_exists.mp hfits.1
      rw [hqueue] at hfavours
      have hfitting : (frame m.payload).length ≤ i.maxPlaintext := of_decide_eq_true hfavours
      simp only [senderStep, hpc, hsession, hqueue]
      rw [if_neg (by omega)]
      exact .closer rfl rfl (by simp [Sender.toSend, hpc])
  | writing =>
      rw [hpc] at hfits hfavours
      have hwrite : i.write = .ok .sent := eq_sent_of_wholeWrite hfavours
      obtain ⟨session, hsession⟩ := Option.isSome_iff_exists.mp hfits
      simp only [senderStep, hpc, hsession]
      cases hframe : w.sender.pendingFrame with
      | none => exact .closer hqueue rfl (by simp [Sender.toSend, hpc, hframe])
      | some bytes =>
          simp only [hwrite]
          exact .closer hqueue rfl (by simp [Sender.toSend, hpc, hframe])
  | sent =>
      simp only [senderStep, hpc]
      refine .forwarded (finishFront_queue hqueue true i.now i.wallMs) ?_
      rw [hqueue]
      rfl
  | pace =>
      simp only [senderStep, hpc]
      exact .closer hqueue rfl (by simp [Sender.toSend, hpc])
  | idle =>
      rw [hpc] at hfits
      have hsession : w.sender.session.isSome = true := hfits
      simp only [senderStep, hpc]
      exact .closer hqueue rfl (by simp [Sender.toSend, hpc, hsession])
  | failed error =>
      rw [hpc] at hfits
      obtain ⟨session, hsession⟩ := Option.isSome_iff_exists.mp hfits
      simp only [senderStep, hpc, hsession]
      exact .closer hqueue rfl (by simp [Sender.toSend, hpc])
  | failedStatus error =>
      simp only [senderStep, hpc]
      exact .closer hqueue rfl (by simp [Sender.toSend, hpc])
  | closing | drain | done | panicked =>
      simp only [Sender.toSend, hpc, Nat.lt_irrefl] at hpositive

/-- The listener and `stop` add to the queue at most, as long as nobody has stopped the relay. -/
theorem next_queue_prefix (w : World) {action : Action} (hother : ∀ i, action ≠ .sender i) :
    departures (World.emit lib cfg w action) = [] ∧
      w.shared.queue <+: (World.next lib cfg w action).shared.queue := by
  cases action with
  | sender i => exact absurd rfl (hother i)
  | stop now =>
      refine ⟨rfl, ?_⟩
      show w.shared.queue <+: (stopRequest cfg now w.shared).queue
      unfold stopRequest
      split <;> exact List.prefix_refl _
  | join =>
      refine ⟨rfl, ?_⟩
      simp only [World.next]
      split <;> exact List.prefix_refl _
  | listener i =>
      simp only [World.next, World.emit]
      cases hpc : w.listener with
      | check | exited => exact ⟨rfl, List.prefix_refl _⟩
      | receiving =>
          simp only [listenStep]
          cases i.recv with
          | again | failed => exact ⟨rfl, List.prefix_refl _⟩
          | datagram peer bytes =>
              simp only [receive]
              split
              · exact ⟨rfl, List.prefix_refl _⟩
              · exact ⟨rfl, List.prefix_append _ _⟩

theorem World.favourable_stopAt {w : World} {more : List Action} (h : w.favourable lib cfg more = true) :
    w.shared.stopAt = none := by
  cases more with
  | nil => exact Option.isNone_iff_eq_none.mp h
  | cons action rest => exact World.favoursAction_stopAt (Bool.and_eq_true_iff.mp h).1

/-- Once nothing gets in the way of the sender any more it forwards all that was queued, whatever the relay
has been through and whatever arrives meanwhile: sixteen of its steps are enough for each message. The
transport reports their frames sent in the order of the queue. -/
theorem queue_is_delivered_once_the_network_works (hvalid : cfg.validate lib = .ok ()) (boot : Boot)
    (actions more : List Action) :
    let relay := relay lib cfg boot
    let w := relay.run actions
    let later := relay.traceFrom w more
    w.favourable lib cfg more = true → 16 * w.shared.queue.length ≤ more.countP Action.isSender →
      (w.shared.queue.map fun m => (m, Fate.forwarded)) <+: departures later ∧
      (w.shared.queue.map fun m => frame m.payload) <+: w.sender.acknowledged ++ delivered later ∧
      w.shared.status.messagesForwarded + w.shared.queue.length ≤
        (relay.runFrom w more).shared.status.messagesForwarded := by
  intro relay w later hfavourable henough
  obtain ⟨host, hhost⟩ := (Config.validate_eq_ok.mp hvalid).1.host
  have hsound : Sound w := sound actions
  have hgone : (w.shared.queue.map fun m => (m, Fate.forwarded)) <+: departures later := by
    refine relay.worklist_done (D := fun w more => Sound w ∧ w.favourable lib cfg more = true)
      (fun w => w.shared.queue) (fun m => (m, Fate.forwarded)) (fun w => w.sender.toSend) 16
      (fun w more h => ⟨h.1.toSend_pos (World.favourable_stopAt h.2), w.sender.toSend_le⟩) ?_ ⟨hsound, hfavourable⟩ henough
    intro w action rest h
    obtain ⟨hsound, hfavourable⟩ := h
    obtain ⟨hfavours, hrest⟩ := Bool.and_eq_true_iff.mp hfavourable
    have hstop : w.shared.stopAt = none := World.favoursAction_stopAt hfavours
    refine ⟨⟨hsound.next action, hrest⟩, fun m queue hqueue => ?_⟩
    by_cases hsender : ∃ i, action = .sender i
    · obtain ⟨i, rfl⟩ := hsender
      cases hsound.advance hhost hstop hqueue (Bool.and_eq_true_iff.mp hfavours).2 with
      | closer hsame hgone hcloser =>
          refine .inl ⟨hgone, ?_, hcloser⟩
          rw [hqueue]
          exact hsame.symm ▸ List.prefix_refl _
      | forwarded hshorter hgone => exact .inr ⟨hgone, hshorter.symm ▸ List.prefix_refl _⟩
    · have hother : ∀ i, action ≠ .sender i := fun i h => hsender ⟨i, h⟩
      have hworks : Action.isSender action = false := by
        cases action with
        | sender i => exact absurd rfl (hother i)
        | _ => rfl
      obtain ⟨hgone, hgrown⟩ := next_queue_prefix w hother
      refine .inl ⟨hgone, hgrown, ?_⟩
      show (World.next lib cfg w action).sender.toSend + _ ≤ _
      rw [World.next_sender_eq w hother, hworks]
      exact Nat.le_refl _
  have hbefore : Fifo w (relay.trace actions) := fifo actions
  have hafter : Fifo (relay.runFrom w more) (relay.trace actions ++ later) := by
    have h : Fifo (relay.run (actions ++ more)) (relay.trace (actions ++ more)) := fifo (actions ++ more)
    rw [relay.run_append, relay.trace_append] at h
    exact h
  obtain ⟨tail, htail⟩ := hgone
  refine ⟨⟨tail, htail⟩, ?_, ?_⟩
  · have hdelivered := hafter.delivered
    rw [delivered_append, hbefore.delivered, departures_append, ← htail] at hdelivered
    simp only [forwardedFrames, List.filter_append, List.map_append, List.append_assoc,
      List.append_cancel_left_eq] at hdelivered
    rw [hdelivered]
    simp [List.filter_map, Function.comp_def]
  · have hforwarded := hafter.forwarded
    rw [departures_append, ← htail] at hforwarded
    simp only [fateCount, List.map_append, List.count_append, List.map_map] at hforwarded
    have hcount : (w.shared.queue.map (Prod.snd ∘ fun m => (m, Fate.forwarded))).count .forwarded =
        w.shared.queue.length := by
      simp [Function.comp_def]
    have hthen : w.shared.status.messagesForwarded =
        ((departures (relay.trace actions)).map Prod.snd).count .forwarded := hbefore.forwarded
    omega

/-- Two messages that arrived while the collector could not be reached leave in their order, with sixteen steps
for each and a second for each step. -/
theorem queue_is_delivered_after_a_failed_lookup :
    let lib : External := ⟨fun _ => false, some, fun _ => none, fun _ => []⟩
    let boot : Boot := ⟨⟨.v4 0x7f000001#32, 1514⟩, "", 0, 0, 0, 0⟩
    let up (now : Instant) : SenderInput :=
      ⟨now, now, 0, .ok (), .result (.ok [⟨.v4 0x0a000001#32, 6514⟩]), .ok (), ⟨"", "", ""⟩, .ok (), 1200, .ok .sent⟩
    let first : Message := ⟨asBytes "<34>1 - h a p m -", .v4 0x7f000001#32⟩
    let second : Message := ⟨asBytes "<34>1 - h a p n -", .v4 0x0a000009#32⟩
    let actions : List Action :=
      [.listener ⟨.again, 0, 0⟩, .listener ⟨.datagram (.v4 0x7f000001#32) (asBytes "<34>1 - h a p m -"), 0, 0⟩,
        .listener ⟨.again, 0, 0⟩, .listener ⟨.datagram (.v4 0x0a000009#32) (asBytes "<34>1 - h a p n -"), 0, 0⟩] ++
        List.replicate 12 (.sender (.failing 0))
    let w := (relay lib Config.default boot).run actions
    let more : List Action := (List.range 32).map fun second => .sender (up second)
    w.shared.queue = [first, second] ∧ 1 ≤ w.shared.status.retryAttempts ∧
      [(first, Fate.forwarded), (second, Fate.forwarded)] <+:
        departures ((relay lib Config.default boot).traceFrom w more) := by
  intro lib boot up first second actions w more
  have hqueue : w.shared.queue = [first, second] := by decide +kernel
  have hretried : 1 ≤ w.shared.status.retryAttempts := by decide +kernel
  have hfavourable : w.favourable lib Config.default more = true := by decide +kernel
  have henough : 16 * w.shared.queue.length ≤ more.countP Action.isSender := by
    rw [hqueue]
    decide
  have h := queue_is_delivered_once_the_network_works (Config.default_valid lib rfl) boot actions more
    hfavourable henough
  have hgone := h.1
  rw [show ((relay lib Config.default boot).run actions).shared.queue = [first, second] from hqueue] at hgone
  exact ⟨hqueue, hretried, hgone⟩

end SyslogDtlsAgent
