import SyslogDtlsAgent.Proof.Dtls.Wire
import SyslogDtlsAgent.Proof.Relay.Fifo

/-!
# What OpenSSL is given to write

The relay over OpenSSL refines the relay: `Wire.action` is the relay's action behind an action, and the buffers
that OpenSSL writes whole are those the relay takes as sent. So what the relay says about its queue holds of the
records that leave, and the protocol says what is behind each of them.
-/

namespace SyslogDtlsAgent

open Library

variable {lib : External} {cfg : Config} {boot : Boot} {name : String} {s : State} {t : Sender}
  {session : Option OpenSslSession}

/-! ### The relay underneath -/

/-- The step of the relay behind an action, if there is one. -/
def Wire.action (lib : External) (cfg : Config) (w : Wire) : WireAction → Option Action
  | .listener i => some (.listener i)
  | .stop now => some (.stop now)
  | .join => some .join
  | .sender i =>
      let step (connect : Except String Unit) : Action :=
        .sender (i.sender w.session (w.world.sender.pendingFrame.getD []) connect)
      match w.world.sender.pc, w.handshake with
      | .connecting remote, none =>
          match (OpenSslConnector.opening lib cfg i.opening remote).result with
          | .error e => some (step (.error e))
          | .ok () => none
      | .connecting _, some until_ =>
          match (OpenSslSession.round (expired w.world.shared i.now) until_ i.returned i.ssl i.round).result with
          | .error e => some (step (.error e))
          | .ok (some _) => some (step (.ok ()))
          | .ok none => none
      | _, _ => some (step (.error ""))

/-- The buffer of a call of `SSL_write` that wrote all of it. -/
def SslCall.written : SslCall → Option Bytes
  | .write bytes length result => if result = length then some bytes else none
  | _ => none

theorem checkResultCalls_only (ssl : Ssl) (result : Int) :
    (OpenSslSession.checkResultCalls ssl result).Only fun call => call.written = none := by
  intro call hcall
  unfold OpenSslSession.checkResultCalls at hcall
  rcases List.mem_cons.mp hcall with rfl | hcall
  · rfl
  · split at hcall
    · cases hcall
    · cases List.mem_singleton.mp hcall
      rfl

theorem handleTimeoutCalls_only (ssl : Ssl) :
    (OpenSslSession.handleTimeoutCalls ssl).Only fun call => call.written = none := by
  intro call hcall
  cases List.mem_singleton.mp hcall
  rfl

theorem dropSession_only (closed : Bool) : ∀ call ∈ dropSession closed, call.written = none := by
  cases closed <;> simp [dropSession, SslCall.written]

theorem settingCall_only {call : SslCall} (succeeds : Bool) (h : call.written = none) :
    (settingCall call succeeds).Only fun call => call.written = none :=
  Traced.only_bind (Traced.only_call h) fun _ => Traced.only_lift _

theorem socketCall_only {call : SslCall} (result : Except String Unit) (h : call.written = none) :
    (socketCall call result).Only fun call => call.written = none :=
  Traced.only_bind (Traced.only_call h) fun _ => Traced.only_lift _

theorem opening_only (lib : External) (cfg : Config) (o : Opening) (remote : SocketAddr) :
    (OpenSslConnector.opening lib cfg o remote).Only fun call => call.written = none := by
  unfold OpenSslConnector.opening
  cases o.bind with
  | error e => exact Traced.only_fail _
  | ok _ =>
      refine Traced.only_bind (Traced.only_call rfl) fun _ => Traced.only_onError ?_ (by simp [SslCall.written])
      refine Traced.only_bind (socketCall_only _ rfl) fun _ => Traced.only_bind (socketCall_only _ rfl) fun _ => ?_
      refine Traced.only_bind (Traced.only_lift _) fun _ => Traced.only_bind (Traced.only_call rfl) fun _ => ?_
      refine Traced.only_onError ?_ (by simp [SslCall.written])
      refine Traced.only_bind (Traced.only_lift _) fun name => Traced.only_bind ?_ fun _ => ?_
      · refine Traced.only_bind (Traced.only_call rfl) fun _ => ?_
        split
        · exact settingCall_only _ rfl
        · exact Traced.only_bind (settingCall_only _ rfl) fun _ => settingCall_only _ rfl
      · refine Traced.only_bind (Traced.only_call rfl) fun _ => Traced.only_bind (settingCall_only _ rfl) fun _ => ?_
        exact Traced.only_bind (Traced.only_lift _) fun _ => Traced.only_bind (Traced.only_lift _) fun _ =>
          Traced.only_call rfl

theorem round_only (cancelled : Bool) (until_ now : Instant) (ssl : Ssl) (r : OpenSslSession.Round) :
    (OpenSslSession.round cancelled until_ now ssl r).Only fun call => call.written = none := by
  refine Traced.only_onError ?_ (dropSession_only false)
  refine Traced.only_bind (Traced.only_lift _) fun _ => Traced.only_bind (Traced.only_call rfl) fun _ => ?_
  refine Traced.only_bind (Traced.only_call rfl) fun _ => ?_
  split
  · refine Traced.only_bind ?_ fun _ => Traced.only_pure _
    refine Traced.only_bind (Traced.only_call rfl) fun _ => Traced.only_bind (Traced.only_lift _) fun _ => ?_
    refine Traced.only_bind (Traced.only_call rfl) fun _ => Traced.only_bind (Traced.only_lift _) fun _ => ?_
    exact Traced.only_bind (Traced.only_call rfl) fun _ => Traced.only_lift _
  · refine Traced.only_bind (checkResultCalls_only ssl _) fun _ => ?_
    refine Traced.only_bind (handleTimeoutCalls_only ssl) fun _ => ?_
    exact Traced.only_bind (Traced.only_lift _) fun _ => Traced.only_pure _

theorem poll_only (ssl : Ssl) (read : Int) :
    (OpenSslSession.poll ssl read).Only fun call => call.written = none := by
  refine Traced.only_bind (Traced.only_call rfl) fun _ => Traced.only_bind (Traced.only_call rfl) fun _ => ?_
  dsimp only
  split
  · exact Traced.only_bind (checkResultCalls_only ssl read) fun _ => handleTimeoutCalls_only ssl
  · exact handleTimeoutCalls_only ssl

theorem nothing_written {α : Type} {x : SslM α} (h : x.Only fun call => call.written = none) :
    x.calls.filterMap SslCall.written = [] :=
  List.filterMap_eq_nil_iff.mpr h

/-- `send` reports a frame as sent exactly when OpenSSL has written all of it. -/
theorem sendCalls_written (session : OpenSslSession) (ssl : Ssl) (bytes : Bytes) :
    (session.sendCalls ssl bytes).calls.filterMap SslCall.written =
      match session.send ssl bytes with
      | .ok .sent => [bytes]
      | _ => [] := by
  rw [← OpenSslSession.sendCalls_result]
  unfold OpenSslSession.sendCalls
  split
  · rfl
  · generalize ssl.write bytes (cInt bytes.length) = result
    by_cases hsent : result = cInt bytes.length
    · subst hsent
      simp only [if_true]
      have hwritten : (SslCall.write bytes (cInt bytes.length) (cInt bytes.length)).written = some bytes := if_pos rfl
      show [.clearError, .write bytes (cInt bytes.length) (cInt bytes.length)].filterMap SslCall.written = [bytes]
      rw [List.filterMap_cons_none rfl, List.filterMap_cons_some hwritten]
      rfl
    · simp only [if_neg hsent]
      have hrest : ∀ {α : Type} (x : SslM α), (x.Only fun call => call.written = none) →
          ((do
            Traced.call .clearError
            Traced.call (.write bytes (cInt bytes.length) result)
            x) : SslM α).Only fun call => call.written = none := fun x hx =>
        Traced.only_bind (Traced.only_call rfl) fun _ => Traced.only_bind (Traced.only_call (if_neg hsent)) fun _ => hx
      by_cases hpartial : 0 < result
      · simp only [if_pos hpartial]
        rw [nothing_written (hrest _ (Traced.only_fail _))]
        rfl
      · simp only [if_neg hpartial]
        rw [nothing_written (hrest _ ?_)]
        · simp only [Traced.result_bind, Traced.result_call, Traced.result_pure, Except.bind]
          split
          · rename_i hok
            revert hok
            cases (OpenSslSession.checkResultCalls ssl result).result with
            | error e => nofun
            | ok _ => cases (OpenSslSession.handleTimeoutCalls ssl).result <;> nofun
          · rfl
        · exact Traced.only_bind (checkResultCalls_only ssl result) fun _ =>
            Traced.only_bind (handleTimeoutCalls_only ssl) fun _ => Traced.only_pure _

/-- A write hands over the frame in hand, and its result is what the adapter makes of it. -/
theorem senderStep_wrote {j : SenderInput} {k : Nat} {bytes : Bytes} {result : Except String WriteOutcome}
    {called returned : Instant} (hmem : .wrote k bytes result called returned ∈ (senderStep lib cfg j s t).events) :
    t.pendingFrame = some bytes ∧ result = j.write := by
  generalize hstep : senderStep lib cfg j s t = step at hmem
  cases hpc : t.pc with
  | writing =>
      simp only [senderStep, hpc] at hstep
      split at hstep
      · subst hstep
        cases hmem
      · subst hstep
        cases hmem
      · rename_i frame session hframe hsession
        repeat' split at hstep
        all_goals
          subst hstep
          cases List.mem_singleton.mp hmem
          exact ⟨hframe, rfl⟩
  | _ =>
      simp only [senderStep, hpc] at hstep
      repeat' split at hstep
      all_goals
        subst hstep
        simp at hmem

/-- What OpenSSL writes in a step is what the relay takes as sent. -/
theorem step_written (i : WireInput) (connect : Except String Unit) :
    let events := (i.step lib cfg s t session connect).events
    (events.flatMap (Event.calls i session)).filterMap SslCall.written = delivered events := by
  intro events
  have hevent : ∀ e ∈ events, (Event.calls i session e).filterMap SslCall.written = e.delivery.toList := by
    intro e he
    cases e with
    | polled k result => exact nothing_written (poll_only i.ssl i.read)
    | wrote k bytes result called returned =>
        obtain ⟨hframe, hresult⟩ := senderStep_wrote he
        cases session with
        | none =>
            rw [hresult]
            rfl
        | some live =>
            have hwrite : result = live.send i.ssl bytes := by
              rw [hresult, hframe]
              rfl
            show (live.sendCalls i.ssl bytes).calls.filterMap SslCall.written = _
            rw [sendCalls_written, hwrite]
            unfold Event.delivery
            cases live.send i.ssl bytes with
            | error e => rfl
            | ok outcome => cases outcome <;> rfl
    | _ => rfl
  clear_value events
  unfold delivered
  induction events with
  | nil => rfl
  | cons e rest ih =>
      rw [List.flatMap_cons, List.filterMap_append, hevent e (List.mem_cons_self ..),
        ih fun e' he' => hevent e' (List.mem_cons_of_mem _ he'), List.filterMap_cons]
      cases e.delivery <;> rfl

theorem filterMap_mk (n : Nat) (calls : List SslCall) :
    (calls.map (Prod.mk n)).filterMap (fun call => call.2.written) = calls.filterMap SslCall.written := by
  rw [List.filterMap_map]
  rfl

/-- A step that connects delivers nothing. -/
theorem connecting_delivered {remote : SocketAddr} (hpc : t.pc = .connecting remote) (j : SenderInput) :
    delivered (senderStep lib cfg j s t).events = [] := by
  simp only [senderStep, hpc]
  split <;> rfl

theorem listenStep_delivered (i : ListenerInput) (s : State) (pc : ListenPc) :
    delivered (listenStep lib cfg i s pc).2.2 = [] := by
  cases pc with
  | check | exited => rfl
  | receiving =>
      simp only [listenStep]
      cases i.recv with
      | again | failed => rfl
      | datagram peer bytes =>
          simp only [receive]
          split <;> rfl

/-- An action of the relay over OpenSSL is the action of the relay behind it, and OpenSSL writes what the relay
takes as sent. -/
theorem Wire.next_refines (w : Wire) (action : WireAction) :
    (w.next lib cfg action).world = (w.action lib cfg action).elim w.world (World.next lib cfg w.world) ∧
      (w.emit lib cfg action).filterMap (fun call => call.2.written) =
        (w.action lib cfg action).elim [] fun a => delivered (World.emit lib cfg w.world a) := by
  cases action with
  | listener i =>
      refine ⟨rfl, ?_⟩
      exact (listenStep_delivered i w.world.shared w.world.listener).symm
  | stop now => exact ⟨rfl, rfl⟩
  | join => exact ⟨rfl, rfl⟩
  | sender i =>
      cases hpc : w.world.sender.pc with
      | connecting remote =>
          have hnothing : ∀ j, delivered (World.emit lib cfg w.world (.sender j)) = [] :=
            fun j => connecting_delivered hpc j
          cases hhandshake : w.handshake with
          | none =>
              have hwritten := nothing_written (opening_only lib cfg i.opening remote)
              simp only [Wire.next, Wire.emit, Wire.action, hpc, hhandshake, filterMap_mk, hwritten]
              cases (OpenSslConnector.opening lib cfg i.opening remote).result with
              | error e => exact ⟨rfl, (hnothing _).symm⟩
              | ok _ => exact ⟨rfl, rfl⟩
          | some until_ =>
              have hwritten := nothing_written
                (round_only (expired w.world.shared i.now) until_ i.returned i.ssl i.round)
              simp only [Wire.next, Wire.emit, Wire.action, hpc, hhandshake, filterMap_mk, hwritten]
              cases (OpenSslSession.round (expired w.world.shared i.now) until_ i.returned i.ssl i.round).result with
              | error e => exact ⟨rfl, (hnothing _).symm⟩
              | ok session =>
                  cases session with
                  | none => exact ⟨rfl, rfl⟩
                  | some session => exact ⟨rfl, (hnothing _).symm⟩
      | _ =>
          simp only [Wire.next, Wire.emit, Wire.action, hpc, filterMap_mk]
          exact ⟨rfl, step_written i (.error "")⟩

theorem wire_refines_relay (lib : External) (cfg : Config) (boot : Boot) (actions : List WireAction) :
    let inner := (wire lib cfg boot).visibles (Wire.action lib cfg) actions
    ((wire lib cfg boot).run actions).world = (relay lib cfg boot).run inner ∧
      ((wire lib cfg boot).trace actions).filterMap (fun call => call.2.written) =
        delivered ((relay lib cfg boot).trace inner) :=
  Machine.run_refines (wire lib cfg boot) (Wire.action lib cfg) (relay lib cfg boot) Wire.world rfl
    Wire.next_refines actions

/-! ### End to end -/

/-- The relay over OpenSSL runs as the relay does, and over all associations the buffers OpenSSL has written
whole are, in order, the frames of the messages counted as forwarded, followed by the frame of the head when
it was written and its removal is the sender's next step. -/
theorem forwarded_messages_are_what_openssl_wrote (lib : External) (cfg : Config) (boot : Boot)
    (actions : List WireAction) :
    let w := (wire lib cfg boot).run actions
    let inner := (wire lib cfg boot).visibles (Wire.action lib cfg) actions
    let written := ((wire lib cfg boot).trace actions).filterMap fun call => call.2.written
    let accepted := arrivals ((relay lib cfg boot).trace inner)
    let gone := departures ((relay lib cfg boot).trace inner)
    w.world = (relay lib cfg boot).run inner ∧
      accepted = gone.map Prod.fst ++ w.world.shared.queue ∧
      written = forwardedFrames gone ++
        (if w.world.sender.pc = .sent then (w.world.shared.queue.take 1).map fun m => frame m.payload else []) ∧
      w.world.shared.status.messagesForwarded = fateCount .forwarded gone := by
  intro w inner written accepted gone
  obtain ⟨hworld, hwritten⟩ := wire_refines_relay lib cfg boot actions
  have hworld : w.world = (relay lib cfg boot).run inner := hworld
  have hfifo : Fifo w.world ((relay lib cfg boot).trace inner) := hworld ▸ fifo inner
  have hheld : Held w.world := hworld ▸ held inner
  refine ⟨hworld, hfifo.order, ?_, hfifo.forwarded⟩
  have hdelivered := hfifo.delivered
  rw [hheld.acknowledged] at hdelivered
  exact hwritten.trans hdelivered

/-- Every record handed to OpenSSL, in every run: the association it goes to has had the configured name set
for its certificate check, has completed its handshake, was told that the certificate verifies, has seen one,
and was not shut down; and the record is not empty and within 16384 bytes. -/
theorem records_follow_authentication (hname : cfg.serverName lib = .ok name) (boot : Boot)
    (actions : List WireAction) {k : Nat} {earlier later : List SslCall} {bytes : Bytes} {length result : Int}
    (hcalls : callsOn k ((wire lib cfg boot).trace actions) = earlier ++ .write bytes length result :: later) :
    ChecksFor name earlier ∧ .connect 1 ∈ earlier ∧ .verifyResult none ∈ earlier ∧
      .peerCertificate true ∈ earlier ∧ .shutdown ∉ earlier ∧
      length = bytes.length ∧ 0 < bytes.length ∧ bytes.length ≤ 16384 := by
  obtain ⟨s, hrun, -⟩ := (linked hname boot actions).allowed k
  rw [hcalls, Protocol.run_append, Option.bind_eq_some_iff] at hrun
  obtain ⟨before, hbefore, hrest⟩ := hrun
  obtain ⟨after, hwrite, -⟩ := Option.bind_eq_some_iff.mp hrest
  have hwrite : sslStep name before (.write bytes length result) = some after := hwrite
  have hearned : Earned name earlier before.stage := earned hbefore
  simp only [sslStep] at hwrite
  split at hwrite
  · rename_i hallowed
    obtain ⟨hstate, hlength, hpositive, hsmall⟩ := hallowed
    have hlevel : before.stage.level = 4 := by rcases hstate with rfl | rfl <;> rfl
    refine ⟨hearned.identity (by omega), hearned.handshake (by omega), hearned.verified (by omega),
      hearned.certificate (by omega), fun hshutdown => ?_, hlength, by omega, by omega⟩
    have hfinal := shutdown_is_final hbefore hshutdown
    rcases hstate with rfl | rfl <;> rcases hfinal with h | h | h <;> cases h
  · cases hwrite

/-- One message on its way to a collector that completes the handshake at once. -/
theorem records_follow_authentication_on_the_first_message :
    let lib : External := ⟨fun _ => false, some, fun _ => none, fun _ => []⟩
    let boot : Boot := ⟨⟨.v4 0x7f000001#32, 1514⟩, "", 0, 0, 0, 0⟩
    let ssl : Ssl := ⟨fun _ length => length, fun _ => 2, none, 0⟩
    let opening : Opening := ⟨.ok (), .ok (), .ok (), true, true, true, true, true, 1⟩
    let i : WireInput := ⟨0, 0, 0, .ok (), .result (.ok [⟨.v4 0x0a000001#32, 6514⟩]), ⟨"", "", ""⟩, opening, ssl,
      ⟨1, true, 1200⟩, -1⟩
    let actions : List WireAction :=
      [.listener ⟨.again, 0, 0⟩, .listener ⟨.datagram (.v4 0x7f000001#32) (asBytes "<34>1 - h a p m -"), 0, 0⟩] ++
        List.replicate 13 (.sender i)
    let calls := callsOn 0 ((wire lib Config.default boot).trace actions)
    calls = calls.take 21 ++ [.write (asBytes "17 <34>1 - h a p m -") 20 20] ∧
      .connect 1 ∈ calls.take 21 ∧ .verifyResult none ∈ calls.take 21 := by
  intro lib boot ssl opening i actions calls
  have hname : Config.default.serverName lib = .ok "collector.example.com" := by decide +kernel
  have hcalls : calls = calls.take 21 ++ [.write (asBytes "17 <34>1 - h a p m -") 20 20] := by decide +kernel
  have h := records_follow_authentication hname boot actions hcalls
  exact ⟨hcalls, h.2.1, h.2.2.1⟩

end SyslogDtlsAgent
