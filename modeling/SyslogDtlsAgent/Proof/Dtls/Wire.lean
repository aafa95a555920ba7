import SyslogDtlsAgent.Dtls.Wire
import SyslogDtlsAgent.Proof.Dtls.Calls
import SyslogDtlsAgent.Proof.Relay.Held

/-!
# The relay keeps the protocol of OpenSSL

What the sender does with its sessions, call by call. Between two actions the SSL object of the newest
association is in the state that `Behind` reads off the sender: ready, waiting for a blocked write to be
retried with the frame in hand, or failed and about to be closed. Everything older is gone.
-/

namespace SyslogDtlsAgent

open Library

variable {lib : External} {cfg : Config} {boot : Boot} {name : String}

/-- The calls on one association. -/
def callsOn (k : Nat) (trace : List (Nat × SslCall)) : List SslCall :=
  (trace.filter fun call => call.1 = k).map Prod.snd

theorem callsOn_append (k : Nat) (left right : List (Nat × SslCall)) :
    callsOn k (left ++ right) = callsOn k left ++ callsOn k right := by
  simp only [callsOn, List.filter_append, List.map_append]

theorem callsOn_self (n : Nat) (calls : List SslCall) : callsOn n (calls.map (Prod.mk n)) = calls := by
  simp [callsOn, List.filter_map, Function.comp_def]

theorem callsOn_other {k n : Nat} (h : k ≠ n) (calls : List SslCall) :
    callsOn k (calls.map (Prod.mk n)) = [] := by
  simp [callsOn, List.filter_map, Function.comp_def, Ne.symm h]

/-! ### The sender's steps -/

/-- The sender has a session, stored or not. -/
def Sender.hasSession (t : Sender) : Bool :=
  t.session.isSome || match t.pc with
    | .established _ => true
    | _ => false

/-- The state of the SSL object behind the session, as far as the sender knows. -/
inductive Behind (t : Sender) : Option OpenSslSession → SslState → Prop where
  | ready (session : OpenSslSession) : Behind t (some session) (.rest .ready)
  | retry (session : OpenSslSession) (bytes : Bytes) (hframe : t.pendingFrame = some bytes) (hpc : t.pc ≠ .sent) :
      Behind t (some session) (.rest (.retry bytes))
  | failed (session : OpenSslSession) (error : String) (stage : Stage) (hopen : stage.isOpen = true)
      (hpc : t.pc = .failed error) : Behind t (some session) (.rest stage)
  | none {s : SslState} (hover : Over s) : Behind t none s

/-- What happens to the session in a step. -/
def after (session : Option OpenSslSession) (events : List Event) : Option OpenSslSession :=
  if events.any Event.drops then none else session

/-- The step keeps the protocol, and the session is as the sender knows it. -/
def Conveys (name : String) (i : WireInput) (session : Option OpenSslSession) (t : Sender) (step : SenderStep) : Prop :=
  (∀ s, Behind t session s →
    ∃ s', (sslProtocol name).run s (step.events.flatMap (Event.calls i session)) = some s' ∧
      Behind step.sender (after session step.events) s') ∧
    (after session step.events).isSome = step.sender.hasSession

def Event.isOperation : Event → Bool
  | .peerInfo _ | .polled _ _ | .wrote _ _ _ _ _ | .closed _ => true
  | _ => false

theorem no_operations : ∀ e ∈ ([] : List Event), e.isOperation = false :=
  fun _ h => absurd h List.not_mem_nil

theorem calls_aside (i : WireInput) (session : Option OpenSslSession) {events : List Event}
    (h : ∀ e ∈ events, e.isOperation = false) :
    events.flatMap (Event.calls i session) = [] ∧ after session events = session := by
  constructor
  · refine List.flatMap_eq_nil_iff.mpr fun e he => ?_
    have := h e he
    cases e <;> first | rfl | cases this
  · unfold after
    rw [if_neg]
    intro hany
    obtain ⟨e, he, hdrops⟩ := List.any_eq_true.mp hany
    have := h e he
    cases e with
    | closed session => cases this
    | _ => cases hdrops

/-- A step without an operation: a session that waits for a retry goes on waiting. -/
theorem Conveys.aside {i : WireInput} {session : Option OpenSslSession} {t : Sender} {step : SenderStep}
    (hevents : ∀ e ∈ step.events, e.isOperation = false) (hsession : session.isSome = t.hasSession)
    (hsame : step.sender.hasSession = t.hasSession) (hfailed : ∀ e, t.pc ≠ .failed e)
    (hframe : ∀ bytes, t.pendingFrame = some bytes → t.pc ≠ .sent →
      step.sender.pendingFrame = some bytes ∧ step.sender.pc ≠ .sent) : Conveys name i session t step := by
  obtain ⟨hcalls, hafter⟩ := calls_aside i session hevents
  unfold Conveys
  rw [hcalls, hafter, hsame]
  refine ⟨fun s hs => ⟨s, rfl, ?_⟩, hsession⟩
  cases hs with
  | ready session => exact .ready session
  | retry session bytes hpending hpc =>
      obtain ⟨hkept, hnot⟩ := hframe bytes hpending hpc
      exact .retry session bytes hkept hnot
  | failed session error stage hopen hpc => exact absurd hpc (hfailed error)
  | none hover => exact .none hover

variable {s : State} {t : Sender} {session : Option OpenSslSession}

/-- What the adapter makes of the answers, given to the sender's step. -/
def WireInput.step (lib : External) (cfg : Config) (i : WireInput) (s : State) (t : Sender)
    (session : Option OpenSslSession) (connect : Except String Unit) : SenderStep :=
  senderStep lib cfg (i.sender session (t.pendingFrame.getD []) connect) s t

theorem conveys_polling (i : WireInput) (connect : Except String Unit) (hpc : t.pc = .polling)
    (hsession : session.isSome = t.hasSession) :
    Conveys name i session t (i.step lib cfg s t session connect) := by
  have hready : ∀ state, Behind t session state → t.pendingFrame = none → t.session.isSome = true →
      state = .rest .ready := by
    intro state hstate hframe hsome
    cases hstate with
    | ready session => rfl
    | retry session bytes hpending => rw [hframe] at hpending; cases hpending
    | failed session error stage hopen hfailed => rw [hpc] at hfailed; cases hfailed
    | none hover => simp [Sender.hasSession, hsome] at hsession
  generalize hstep : i.step lib cfg s t session connect = step
  simp only [WireInput.step, senderStep, hpc] at hstep
  split at hstep
  · rename_i hnone
    subst hstep
    refine .aside no_operations hsession ?_ (by simp [hpc]) (fun bytes hframe _ => ⟨hframe, by simp⟩)
    simp [Sender.hasSession, hnone, hpc]
  · rename_i k hk
    have hsome : t.session.isSome = true := by rw [hk]; rfl
    split at hstep
    · subst hstep
      refine .aside no_operations hsession ?_ (by simp [hpc]) (fun bytes hframe _ => ⟨hframe, by simp⟩)
      simp [Sender.hasSession, hk]
    · rename_i hframe
      have hframe : t.pendingFrame = none := by
        cases hpending : t.pendingFrame with
        | none => rfl
        | some bytes => simp [hpending] at hframe
      have hhas : session.isSome = true := by simp [hsession, Sender.hasSession, hsome]
      obtain ⟨live, rfl⟩ := Option.isSome_iff_exists.mp hhas
      have hpoll := poll_keeps name i.ssl i.read
      split at hstep
      all_goals
        rename_i hresult
        subst hstep
        refine ⟨fun state hstate => ?_, by simp [after, Event.drops, Sender.hasSession, hk]⟩
        obtain ⟨s', hrun, hok, herror⟩ := hpoll state (hready state hstate hframe hsome)
        refine ⟨s', by simpa [Event.calls] using hrun, ?_⟩
      · obtain ⟨stage, hopen, rfl⟩ := herror _ hresult
        exact .failed live _ stage hopen rfl
      · rw [hok _ hresult]
        exact .ready live

theorem conveys_writing (i : WireInput) (connect : Except String Unit) (hpc : t.pc = .writing)
    (hsession : session.isSome = t.hasSession) :
    Conveys name i session t (i.step lib cfg s t session connect) := by
  generalize hstep : i.step lib cfg s t session connect = step
  simp only [WireInput.step, senderStep, hpc] at hstep
  split at hstep
  · rename_i hframe
    subst hstep
    refine .aside no_operations hsession ?_ (by simp [hpc]) (fun bytes hframe _ => ⟨hframe, by simp⟩)
    simp [Sender.hasSession, hpc]
  · rename_i hnone
    subst hstep
    refine .aside no_operations hsession ?_ (by simp [hpc]) (fun bytes hframe _ => ⟨hframe, by simp⟩)
    simp [Sender.hasSession, hpc]
  · rename_i bytes k hframe hk
    have hhas : session.isSome = true := by simp [hsession, Sender.hasSession, hk]
    obtain ⟨live, rfl⟩ := Option.isSome_iff_exists.mp hhas
    have hstage : ∀ state, Behind t (some live) state →
        ∃ stage, (stage = .ready ∨ stage = .retry bytes) ∧ state = .rest stage := by
      intro state hstate
      cases hstate with
      | ready session => exact ⟨_, .inl rfl, rfl⟩
      | retry session bytes' hpending =>
          rw [hframe] at hpending
          cases hpending
          exact ⟨_, .inr rfl, rfl⟩
      | failed session error stage hopen hfailed => rw [hpc] at hfailed; cases hfailed
    have hsend : ∀ state, Behind t (some live) state →
        ∃ s', (sslProtocol name).run state (live.sendCalls i.ssl bytes).calls = some s' ∧
          (∀ outcome, live.send i.ssl bytes = .ok outcome → s' = .rest (outcome.stage bytes)) ∧
          ∀ e, live.send i.ssl bytes = .error e → Settled s' := by
      intro state hstate
      obtain ⟨stage, hcase, rfl⟩ := hstage state hstate
      have h := sendCalls_keeps name live i.ssl bytes hcase (.rest stage) rfl
      simpa only [OpenSslSession.sendCalls_result] using h
    simp only [WireInput.sender, hframe, Option.getD_some, Option.elim_some] at hstep
    split at hstep
    · rename_i hsent
      subst hstep
      refine ⟨fun state hstate => ?_, by simp [after, Event.drops, Sender.hasSession, hk]⟩
      obtain ⟨s', hrun, hok, -⟩ := hsend state hstate
      refine ⟨s', by simpa [Event.calls] using hrun, ?_⟩
      rw [hok _ hsent]
      exact .ready live
    · rename_i hblocked
      split at hstep
      all_goals
        subst hstep
        refine ⟨fun state hstate => ?_, by simp [after, Event.drops, Sender.hasSession, hk]⟩
        obtain ⟨s', hrun, hok, -⟩ := hsend state hstate
        refine ⟨s', by simpa [Event.calls] using hrun, ?_⟩
        rw [hok _ hblocked]
        exact .retry live bytes rfl (by simp)
    · rename_i error herror
      subst hstep
      refine ⟨fun state hstate => ?_, by simp [after, Event.drops, Sender.hasSession, hk]⟩
      obtain ⟨s', hrun, -, hfailed⟩ := hsend state hstate
      refine ⟨s', by simpa [Event.calls] using hrun, ?_⟩
      obtain ⟨stage, hopen, rfl⟩ := hfailed _ herror
      exact .failed live error stage hopen rfl

/-- A session that is closed is shut down and dropped. -/
theorem Conveys.closed {i : WireInput} {pc : Pc} {k : Nat} {pendingFrame : Option Bytes}
    (hk : t.session = some k) (hsession : session.isSome = t.hasSession) (hpc : ∀ j, pc ≠ .established j) :
    Conveys name i session t ⟨s, { t with pc, session := none, pendingFrame }, [.closed k]⟩ := by
  have hhas : session.isSome = true := by simp [hsession, Sender.hasSession, hk]
  obtain ⟨live, rfl⟩ := Option.isSome_iff_exists.mp hhas
  refine ⟨fun state hstate => ?_, ?_⟩
  · have hopen : ∃ stage, stage.isOpen = true ∧ state = .rest stage := by
      cases hstate with
      | ready session => exact ⟨_, rfl, rfl⟩
      | retry session bytes => exact ⟨_, rfl, rfl⟩
      | failed session error stage hopen => exact ⟨_, hopen, rfl⟩
    obtain ⟨stage, hstage, rfl⟩ := hopen
    refine ⟨_, by simpa [Event.calls] using closeCalls_run hstage, ?_⟩
    exact .none (.inl rfl)
  · simp only [after, List.any_cons, Event.drops, List.any_nil, Bool.or_false, if_true, Option.isSome_none,
      Sender.hasSession]

/-- Every step of the sender but the one that connects. -/
theorem conveys (lib : External) (cfg : Config) (name : String) (s : State) (i : WireInput) (connect : Except String Unit)
    (hfits : t.pc.place.Fits t.session t.pendingFrame) (hpc : ∀ remote, t.pc ≠ .connecting remote)
    (hsession : session.isSome = t.hasSession) :
    Conveys name i session t (i.step lib cfg s t session connect) := by
  cases hplace : t.pc with
  | connecting remote => exact absurd hplace (hpc remote)
  | polling => exact conveys_polling i connect hplace hsession
  | writing => exact conveys_writing i connect hplace hsession
  | established k =>
      rw [hplace] at hfits
      have hhas : session.isSome = true := by simp [hsession, Sender.hasSession, hplace]
      obtain ⟨live, rfl⟩ := Option.isSome_iff_exists.mp hhas
      simp only [WireInput.step, senderStep, hplace]
      refine ⟨fun state hstate => ?_, by simp [after, Event.drops, Sender.hasSession]⟩
      have hready : state = .rest .ready := by
        cases hstate with
        | ready session => rfl
        | retry session bytes hpending => rw [hfits.2] at hpending; cases hpending
        | failed session error stage hopen hfailed => rw [hplace] at hfailed; cases hfailed
      subst hready
      exact ⟨_, rfl, .ready live⟩
  | take =>
      rw [hplace] at hfits
      obtain ⟨hsome, hframe⟩ := hfits
      obtain ⟨k, hk⟩ := Option.isSome_iff_exists.mp hsome
      have hhas : session.isSome = true := by simp [hsession, Sender.hasSession, hk]
      obtain ⟨live, rfl⟩ := Option.isSome_iff_exists.mp hhas
      have hready : ∀ state, Behind t (some live) state → state = .rest .ready := by
        intro state hstate
        cases hstate with
        | ready session => rfl
        | retry session bytes hpending => rw [hframe] at hpending; cases hpending
        | failed session error stage hopen hfailed => rw [hplace] at hfailed; cases hfailed
      generalize hstep : i.step lib cfg s t (some live) connect = step
      simp only [WireInput.step, senderStep, hplace, hk] at hstep
      repeat' split at hstep
      all_goals
        subst hstep
        refine ⟨fun state hstate => ⟨_, rfl, ?_⟩, by simp [after, Event.drops, Sender.hasSession]⟩
        rw [hready state hstate]
        exact .ready live
  | sent =>
      rw [hplace] at hfits
      obtain ⟨k, hk⟩ := Option.isSome_iff_exists.mp hfits.1
      have hhas : session.isSome = true := by simp [hsession, Sender.hasSession, hk]
      obtain ⟨live, rfl⟩ := Option.isSome_iff_exists.mp hhas
      simp only [WireInput.step, senderStep, hplace]
      have hevents : ∀ e ∈ (s.queue.head?.map fun m => Event.finished m .forwarded).toList,
          e.isOperation = false := by simp [Event.isOperation]
      obtain ⟨hcalls, hafter⟩ := calls_aside i (some live) hevents
      unfold Conveys
      rw [hcalls, hafter]
      refine ⟨fun state hstate => ⟨state, rfl, ?_⟩, by simp [Sender.hasSession, hk]⟩
      cases hstate with
      | ready session => exact .ready live
      | retry session bytes hpending hnot => exact absurd hplace hnot
      | failed session error stage hopen hfailed => rw [hplace] at hfailed; cases hfailed
  | failed error =>
      rw [hplace] at hfits
      obtain ⟨k, hk⟩ := Option.isSome_iff_exists.mp hfits
      simp only [WireInput.step, senderStep, hplace, hk]
      exact .closed hk hsession (fun _ h => by cases h)
  | closing =>
      simp only [WireInput.step, senderStep, hplace]
      cases hk : t.session with
      | some k => exact .closed hk hsession (fun _ h => by cases h)
      | none =>
          refine .aside no_operations hsession ?_ (by simp [hplace]) (fun bytes hframe _ => ⟨hframe, by simp⟩)
          simp [Sender.hasSession, hk, hplace]
  | _ =>
      generalize hstep : i.step lib cfg s t session connect = step
      simp only [WireInput.step, senderStep, hplace] at hstep
      repeat' split at hstep
      all_goals
        subst hstep
        refine .aside ?_ hsession ?_ (by simp [hplace]) (fun bytes hframe _ => ⟨hframe, by simp⟩)
        · simp [Event.isOperation]
        · simp [Sender.hasSession, hplace]

/-! ### Whole runs -/

/-- The state of the newest association. -/
def Wire.Newest (w : Wire) (s : SslState) : Prop :=
  match w.handshake with
  | some _ => s = .rest .handshaking
  | none => Behind w.world.sender w.session s

structure Linked (name : String) (w : Wire) (calls : List (Nat × SslCall)) : Prop where
  held : Held w.world
  dialling : w.handshake.isSome = true → (∃ remote, w.world.sender.pc = .connecting remote) ∧ w.session = none
  session : w.session.isSome = w.world.sender.hasSession
  counted : w.handshake.isSome = true ∨ w.session.isSome = true → 0 < w.associations
  newest : ∀ k, k + 1 = w.associations →
    ∃ s, (sslProtocol name).run (.rest .unbound) (callsOn k calls) = some s ∧ w.Newest s
  older : ∀ k, k + 1 < w.associations →
    ∃ s, (sslProtocol name).run (.rest .unbound) (callsOn k calls) = some s ∧ Over s
  unborn : ∀ k, w.associations ≤ k → callsOn k calls = []

theorem Linked.start : Linked name (Wire.start cfg boot) [] where
  held := Held.start
  dialling := nofun
  session := rfl
  counted := by rintro (h | h) <;> cases h
  newest _ h := by cases h
  older _ h := absurd h (Nat.not_lt_zero _)
  unborn _ _ := rfl

/-- A connecting sender has no session. -/
theorem Linked.connecting {w : Wire} {calls : List (Nat × SslCall)} (h : Linked name w calls)
    {remote : SocketAddr} (hpc : w.world.sender.pc = .connecting remote) :
    w.session = none ∧ w.world.sender.session = none ∧ w.world.sender.pendingFrame = none := by
  have hfits := h.held.fits
  rw [hpc] at hfits
  have hsession := h.session
  refine ⟨?_, hfits.1, hfits.2⟩
  cases hlive : w.session with
  | none => rfl
  | some session => simp [hlive, Sender.hasSession, hfits.1, hpc] at hsession

/-- The calls of one action are those on the newest association. -/
theorem Linked.calls {w : Wire} {calls : List (Nat × SslCall)} (h : Linked name w calls) (fresh : List SslCall)
    {P : SslState → Prop} (hcounted : fresh ≠ [] → 0 < w.associations)
    (hstep : ∀ s, w.Newest s → ∃ s', (sslProtocol name).run s fresh = some s' ∧ P s') :
    (∀ k, k + 1 = w.associations → ∃ s, (sslProtocol name).run (.rest .unbound)
        (callsOn k (calls ++ fresh.map (Prod.mk (w.associations - 1)))) = some s ∧ P s) ∧
      (∀ k, k + 1 < w.associations → ∃ s, (sslProtocol name).run (.rest .unbound)
        (callsOn k (calls ++ fresh.map (Prod.mk (w.associations - 1)))) = some s ∧ Over s) ∧
      ∀ k, w.associations ≤ k → callsOn k (calls ++ fresh.map (Prod.mk (w.associations - 1))) = [] := by
  refine ⟨fun k hk => ?_, fun k hk => ?_, fun k hk => ?_⟩
  · obtain ⟨s, hrun, hnewest⟩ := h.newest k hk
    obtain ⟨s', hfresh, hpost⟩ := hstep s hnewest
    have hnumber : w.associations - 1 = k := by omega
    refine ⟨s', ?_, hpost⟩
    rw [callsOn_append, hnumber, callsOn_self, Protocol.run_append, hrun]
    exact hfresh
  · have hother : k ≠ w.associations - 1 := by omega
    rw [callsOn_append, callsOn_other hother, List.append_nil]
    exact h.older k hk
  · rw [callsOn_append, h.unborn k hk, List.nil_append]
    by_cases hempty : fresh = []
    · rw [hempty]
      rfl
    · have := hcounted hempty
      exact callsOn_other (by omega) fresh

/-- An action that is no step of the sender. -/
theorem Linked.aside {w : Wire} {calls : List (Nat × SslCall)} (h : Linked name w calls) {action : Action}
    (hother : ∀ i, action ≠ .sender i) :
    Linked name { w with world := World.next lib cfg w.world action } (calls ++ []) := by
  have hsender : (World.next lib cfg w.world action).sender = w.world.sender := World.next_sender_eq w.world hother
  rw [List.append_nil]
  refine ⟨h.held.move (move_next w.world action), ?_, ?_, h.counted, fun k hk => ?_, h.older, h.unborn⟩
  · show _ → (∃ remote, (World.next lib cfg w.world action).sender.pc = _) ∧ _
    rw [hsender]
    exact h.dialling
  · show _ = (World.next lib cfg w.world action).sender.hasSession
    rw [hsender]
    exact h.session
  · obtain ⟨s, hrun, hnewest⟩ := h.newest k hk
    refine ⟨s, hrun, ?_⟩
    unfold Wire.Newest at hnewest ⊢
    show match w.handshake with
      | some _ => s = .rest .handshaking
      | none => Behind (World.next lib cfg w.world action).sender w.session s
    rw [hsender]
    exact hnewest

theorem Linked.advance (lib : External) (cfg : Config) {w : Wire} {calls : List (Nat × SslCall)}
    (h : Linked name w calls) (i : WireInput)
    (hhandshake : w.handshake = none) (hpc : ∀ remote, w.world.sender.pc ≠ .connecting remote) :
    Linked name (w.advance lib cfg i (.error "")) (calls ++
      ((w.senderStep lib cfg i (.error "")).events.flatMap (Event.calls i w.session)).map
        (Prod.mk (w.associations - 1))) := by
  obtain ⟨hstep, hsession⟩ := conveys lib cfg name w.world.shared i (.error "")
    h.held.fits hpc h.session
  have hdrops : after w.session (w.senderStep lib cfg i (.error "")).events =
      (w.advance lib cfg i (.error "")).session := rfl
  have hnone : (w.advance lib cfg i (.error "")).handshake = none := hhandshake
  have hcounted : (w.senderStep lib cfg i (.error "")).events.flatMap (Event.calls i w.session) ≠ [] →
      0 < w.associations := by
    intro hcalls
    apply h.counted
    right
    by_contra hgone
    have hlost : w.session = none := Option.not_isSome_iff_eq_none.mp hgone
    obtain ⟨s', hrun, -⟩ := hstep (.rest .released) (hlost ▸ .none (.inl rfl))
    exact hcalls (released_stuck hrun)
  obtain ⟨hnewest, holder, hunborn⟩ := h.calls _ (P := (w.advance lib cfg i (.error "")).Newest) hcounted
    fun s hs => by
      unfold Wire.Newest at hs ⊢
      rw [hhandshake] at hs
      rw [hnone]
      exact hstep s hs
  refine ⟨?_, ?_, hsession, ?_, hnewest, holder, hunborn⟩
  · exact h.held.move (@move_next lib cfg w.world (.sender _))
  · rw [hnone]
    nofun
  · rintro (hsome | hsome)
    · rw [hnone] at hsome
      cases hsome
    · apply h.counted
      right
      rw [← hdrops] at hsome
      unfold after at hsome
      split at hsome
      · cases hsome
      · exact hsome

/-- `connect` returns: with a session that is ready, or with nothing left. -/
theorem Linked.connected {w : Wire} {calls : List (Nat × SslCall)} {remote : SocketAddr} (i : WireInput)
    (result : Except String OpenSslSession) (hheld : Held w.world) (hpc : w.world.sender.pc = .connecting remote)
    (hcounted : 0 < w.associations)
    (hnewest : ∀ k, k + 1 = w.associations →
      ∃ s, (sslProtocol name).run (.rest .unbound) (callsOn k calls) = some s ∧
        match result with
        | .ok _ => s = .rest .ready
        | .error _ => Over s)
    (holder : ∀ k, k + 1 < w.associations →
      ∃ s, (sslProtocol name).run (.rest .unbound) (callsOn k calls) = some s ∧ Over s)
    (hunborn : ∀ k, w.associations ≤ k → callsOn k calls = []) :
    Linked name (w.connected lib cfg i result) calls := by
  have hfits := hheld.fits
  rw [hpc] at hfits
  have hnext : Held (w.connected lib cfg i result).world :=
    hheld.move (@move_next lib cfg w.world (.sender _))
  refine ⟨hnext, nofun, ?_, fun _ => hcounted, fun k hk => ?_, holder, hunborn⟩
  · cases result with
    | ok session =>
        simp [Wire.connected, Wire.advance, Wire.senderStep, senderStep, hpc, WireInput.sender, Sender.hasSession,
          Except.map, Except.toOption]
    | error e =>
        simp [Wire.connected, Wire.advance, Wire.senderStep, senderStep, hpc, WireInput.sender, Sender.hasSession,
          Except.map, Except.toOption, hfits.1]
  · obtain ⟨s, hrun, hpost⟩ := hnewest k hk
    refine ⟨s, hrun, ?_⟩
    cases result with
    | ok session =>
        obtain rfl : s = .rest .ready := hpost
        exact .ready session
    | error e => exact .none hpost

/-- A new association: the older ones are over, and only its calls are added. -/
theorem Linked.grown {w : Wire} {calls : List (Nat × SslCall)} {remote : SocketAddr} {fresh : List SslCall}
    {s : SslState} (h : Linked name w calls) (hhandshake : w.handshake = none)
    (hpc : w.world.sender.pc = .connecting remote)
    (hfresh : (sslProtocol name).run (.rest .unbound) fresh = some s) :
    (∀ k, k + 1 = w.associations + 1 →
        (sslProtocol name).run (.rest .unbound)
          (callsOn k (calls ++ fresh.map (Prod.mk w.associations))) = some s) ∧
      (∀ k, k + 1 < w.associations + 1 → ∃ s, (sslProtocol name).run (.rest .unbound)
        (callsOn k (calls ++ fresh.map (Prod.mk w.associations))) = some s ∧ Over s) ∧
      ∀ k, w.associations + 1 ≤ k → callsOn k (calls ++ fresh.map (Prod.mk w.associations)) = [] := by
  refine ⟨fun k hk => ?_, fun k hk => ?_, fun k hk => ?_⟩
  · obtain rfl : k = w.associations := by omega
    rw [callsOn_append, h.unborn _ (Nat.le_refl _), List.nil_append, callsOn_self]
    exact hfresh
  · have hother : k ≠ w.associations := by omega
    rw [callsOn_append, callsOn_other hother, List.append_nil]
    by_cases hlast : k + 1 = w.associations
    · obtain ⟨s, hrun, hnewest⟩ := h.newest k hlast
      unfold Wire.Newest at hnewest
      rw [hhandshake, (h.connecting hpc).1] at hnewest
      cases hnewest with
      | none hover => exact ⟨s, hrun, hover⟩
    · exact h.older k (by omega)
  · rw [callsOn_append, h.unborn k (by omega), callsOn_other (by omega)]
    rfl

theorem Linked.opening (hname : cfg.serverName lib = .ok name) {w : Wire} {calls : List (Nat × SslCall)}
    {remote : SocketAddr} (h : Linked name w calls) (hhandshake : w.handshake = none)
    (hpc : w.world.sender.pc = .connecting remote) (i : WireInput) :
    Linked name (w.next lib cfg (.sender i)) (calls ++ w.emit lib cfg (.sender i)) := by
  obtain ⟨s, hrun, hok, herror⟩ := opening_keeps hname i.opening remote _ rfl
  obtain ⟨hnewest, holder, hunborn⟩ := h.grown hhandshake hpc hrun
  simp only [Wire.next, Wire.emit, hpc, hhandshake]
  cases hresult : (OpenSslConnector.opening lib cfg i.opening remote).result with
  | error e =>
      exact Linked.connected (w := { w with associations := w.associations + 1 }) i (.error e) h.held hpc
        (Nat.succ_pos _) (fun k hk => ⟨s, hnewest k hk, herror e hresult⟩) holder hunborn
  | ok _ =>
      exact ⟨h.held, fun _ => ⟨⟨remote, hpc⟩, (h.connecting hpc).1⟩, h.session, fun _ => Nat.succ_pos _,
        fun k hk => ⟨s, hnewest k hk, hok _ hresult⟩, holder, hunborn⟩

theorem Linked.round {w : Wire} {calls : List (Nat × SslCall)} {until_ : Instant} (h : Linked name w calls)
    (hhandshake : w.handshake = some until_) (i : WireInput) :
    Linked name (w.next lib cfg (.sender i)) (calls ++ w.emit lib cfg (.sender i)) := by
  have hsome : w.handshake.isSome = true := by rw [hhandshake]; rfl
  obtain ⟨⟨remote, hpc⟩, hsession⟩ := h.dialling hsome
  have hcounted : 0 < w.associations := h.counted (.inl hsome)
  have hkeeps := round_keeps name (expired w.world.shared i.now) until_ i.returned i.ssl i.round
  have hnewest : ∀ s, w.Newest s → s = .rest .handshaking := by
    intro s hs
    unfold Wire.Newest at hs
    rw [hhandshake] at hs
    exact hs
  simp only [Wire.next, Wire.emit, hpc, hhandshake]
  generalize OpenSslSession.round (expired w.world.shared i.now) until_ i.returned i.ssl i.round = x at hkeeps
  obtain ⟨s', hrun, hok, herror⟩ := hkeeps _ rfl
  obtain ⟨hlast, holder, hunborn⟩ := h.calls x.calls (P := (· = s')) (fun _ => hcounted)
    fun s hs => ⟨s', hnewest s hs ▸ hrun, rfl⟩
  cases hresult : x.result with
  | error e =>
      refine Linked.connected i (.error e) h.held hpc hcounted (fun k hk => ?_) holder hunborn
      obtain ⟨s, hs, rfl⟩ := hlast k hk
      exact ⟨s, hs, .inl (herror e hresult)⟩
  | ok session =>
      have hpost := hok session hresult
      cases session with
      | some session =>
          refine Linked.connected i (.ok session) h.held hpc hcounted (fun k hk => ?_) holder hunborn
          obtain ⟨s, hs, rfl⟩ := hlast k hk
          exact ⟨s, hs, hpost⟩
      | none =>
          refine ⟨h.held, h.dialling, h.session, h.counted, fun k hk => ?_, holder, hunborn⟩
          obtain ⟨s, hs, rfl⟩ := hlast k hk
          refine ⟨s, hs, ?_⟩
          unfold Wire.Newest
          rw [hhandshake]
          exact hpost

theorem Linked.next (hname : cfg.serverName lib = .ok name) {w : Wire} {calls : List (Nat × SslCall)}
    (h : Linked name w calls) (action : WireAction) :
    Linked name (w.next lib cfg action) (calls ++ w.emit lib cfg action) := by
  cases action with
  | listener i => exact h.aside (fun _ h => by cases h)
  | stop now => exact h.aside (fun _ h => by cases h)
  | join => exact h.aside (fun _ h => by cases h)
  | sender i =>
      cases hhandshake : w.handshake with
      | none =>
          by_cases hdial : ∃ remote, w.world.sender.pc = .connecting remote
          · obtain ⟨remote, hpc⟩ := hdial
            exact h.opening hname hhandshake hpc i
          · have hother : ∀ remote, w.world.sender.pc ≠ .connecting remote := fun remote hpc => hdial ⟨remote, hpc⟩
            have hadvance := Linked.advance lib cfg h i hhandshake hother
            unfold Wire.next Wire.emit
            cases hpc : w.world.sender.pc with
            | connecting remote => exact absurd hpc (hother remote)
            | _ => exact hadvance
      | some until_ => exact h.round hhandshake i

theorem linked (hname : cfg.serverName lib = .ok name) (boot : Boot) (actions : List WireAction) :
    Linked name ((wire lib cfg boot).run actions) ((wire lib cfg boot).trace actions) :=
  (wire lib cfg boot).induction (P := Linked name) Linked.start (fun _ _ action h => h.next hname action) actions

theorem Linked.allowed {w : Wire} {calls : List (Nat × SslCall)} (h : Linked name w calls) (k : Nat) :
    ∃ s, (sslProtocol name).run (.rest .unbound) (callsOn k calls) = some s ∧
      (k + 1 = w.associations ∧ w.Newest s ∨ k + 1 ≠ w.associations ∧ Over s) := by
  rcases Nat.lt_trichotomy (k + 1) w.associations with hless | hlast | hmore
  · obtain ⟨s, hrun, hover⟩ := h.older k hless
    exact ⟨s, hrun, .inr ⟨hless.ne, hover⟩⟩
  · obtain ⟨s, hrun, hnewest⟩ := h.newest k hlast
    exact ⟨s, hrun, .inl ⟨hlast, hnewest⟩⟩
  · refine ⟨.rest .unbound, ?_, .inr ⟨hmore.ne', .inr rfl⟩⟩
    rw [h.unborn k (by omega)]
    rfl

/-- A sender that has finished holds no association. -/
theorem Linked.done {w : Wire} {calls : List (Nat × SslCall)} {s : SslState} (h : Linked name w calls)
    (hdone : w.world.sender.pc = .done) (hnewest : w.Newest s) : Over s := by
  have hhandshake : w.handshake = none := by
    by_contra hsome
    obtain ⟨⟨remote, hpc⟩, -⟩ := h.dialling (Option.isSome_iff_ne_none.mpr hsome)
    rw [hdone] at hpc
    cases hpc
  have hfits := h.held.fits
  rw [hdone] at hfits
  have hnone : w.world.sender.session = none := hfits
  have hsession : w.session = none := by
    have hsame := h.session
    cases hlive : w.session with
    | none => rfl
    | some session => simp [hlive, Sender.hasSession, hdone, hnone] at hsame
  unfold Wire.Newest at hnewest
  rw [hhandshake, hsession] at hnewest
  cases hnewest with
  | none hover => exact hover

/-- In every run the calls on each association keep the protocol of OpenSSL, at most one association is not
over, and once the sender has finished all of them are. -/
theorem ssl_calls_keep_protocol (hname : cfg.serverName lib = .ok name) (boot : Boot) (actions : List WireAction)
    (k : Nat) :
    let w := (wire lib cfg boot).run actions
    ∃ s, (sslProtocol name).run (.rest .unbound) (callsOn k ((wire lib cfg boot).trace actions)) = some s ∧
      (k + 1 ≠ w.associations ∨ w.world.sender.pc = .done → Over s) := by
  intro w
  have h : Linked name w ((wire lib cfg boot).trace actions) := linked hname boot actions
  obtain ⟨s, hrun, hcase⟩ := h.allowed k
  refine ⟨s, hrun, fun hwhen => ?_⟩
  rcases hcase with ⟨hlast, hnewest⟩ | ⟨-, hover⟩
  · rcases hwhen with hother | hdone
    · exact absurd hlast hother
    · exact h.done hdone hnewest
  · exact hover

/-- A connect to a collector that completes the handshake at once. -/
theorem ssl_calls_keep_protocol_on_the_first_connect :
    let lib : External := ⟨fun _ => false, some, fun _ => none, fun _ => []⟩
    let boot : Boot := ⟨⟨.v4 0x7f000001#32, 1514⟩, "", 0, 0, 0, 0⟩
    let ssl : Ssl := ⟨fun _ length => length, fun _ => 2, none, 0⟩
    let opening : Opening := ⟨.ok (), .ok (), .ok (), true, true, true, true, true, 1⟩
    let i : WireInput := ⟨0, 0, 0, .ok (), .result (.ok [⟨.v4 0x0a000001#32, 6514⟩]), ⟨"", "", ""⟩, opening, ssl,
      ⟨1, true, 1200⟩, -1⟩
    let calls := callsOn 0 ((wire lib Config.default boot).trace (List.replicate 8 (.sender i)))
    calls.length = 15 ∧ ∃ s, (sslProtocol "collector.example.com").run (.rest .unbound) calls = some s := by
  intro lib boot ssl opening i calls
  have hname : Config.default.serverName lib = .ok "collector.example.com" := by decide +kernel
  obtain ⟨s, hrun, -⟩ := ssl_calls_keep_protocol hname boot (List.replicate 8 (.sender i)) 0
  exact ⟨by decide +kernel, s, hrun⟩

end SyslogDtlsAgent
