import SyslogDtlsAgent.Proof.Relay.Standing

/-!
# What a status says about the peer

The address, the fingerprint, the cipher and the protocol in a status are written at different moments of a
connection attempt and stay there afterwards. As long as the sender holds a session they are those of that
session: the address its connect went to, and what the peer answered in its handshake.
-/

namespace SyslogDtlsAgent

open Library

variable {lib : External} {cfg : Config} {boot : Boot}

/-- What the status says about the far end. -/
structure Peer where
  address : Option String
  fingerprint : Option String
  cipher : Option String
  protocol : Option String

def Status.peer (status : Status) : Peer :=
  ⟨status.remoteAddress, status.peerFingerprint, status.cipher, status.protocol⟩

/-- The session came out of the connect to this address. -/
def OpenedTo (events : List Event) (session : Nat) (remote : SocketAddr) : Prop :=
  ∃ before after, events = before ++ .connect remote :: .opened session :: after

/-- The step that took the session over was told this about its peer. -/
def Greeted (lib : External) (cfg : Config) (boot : Boot) (actions : List Action) (session : Nat) (info : PeerInfo) :
    Prop :=
  ∃ before i after, actions = before ++ .sender i :: after ∧
    ((relay lib cfg boot).run before).sender.pc = .established session ∧ i.peerInfo = info

theorem OpenedTo.append {events : List Event} {session : Nat} {remote : SocketAddr} (h : OpenedTo events session remote)
    (more : List Event) : OpenedTo (events ++ more) session remote := by
  obtain ⟨before, after, rfl⟩ := h
  refine ⟨before, after ++ more, ?_⟩
  rw [List.append_assoc, List.cons_append, List.cons_append]

theorem Greeted.append {actions : List Action} {session : Nat} {info : PeerInfo}
    (h : Greeted lib cfg boot actions session info) (more : List Action) :
    Greeted lib cfg boot (actions ++ more) session info := by
  obtain ⟨before, i, after, rfl, hpc, hinfo⟩ := h
  refine ⟨before, i, after ++ more, ?_, hpc, hinfo⟩
  rw [List.append_assoc, List.cons_append]

/-- What is true of the peer fields from the dial of an address on. -/
structure Disclosed (lib : External) (cfg : Config) (boot : Boot) (actions : List Action) (w : World)
    (events : List Event) : Prop where
  dialled : ∀ remote, w.sender.pc = .connecting remote → w.shared.status.peer.address = some remote.display
  opened : ∀ session, w.sender.pc = .established session →
    ∃ remote, OpenedTo events session remote ∧ w.shared.status.peer.address = some remote.display
  greeted : ∀ session, w.sender.session = some session →
    ∃ remote info, OpenedTo events session remote ∧ Greeted lib cfg boot actions session info ∧
      w.shared.status.peer = ⟨some remote.display, some info.fingerprint, some info.cipher, some info.protocol⟩

theorem Disclosed.start : Disclosed lib cfg boot [] (World.start cfg boot) [] := by
  constructor <;> intro _ h <;> cases h

/-- A step that connects nothing. -/
theorem Disclosed.aside {actions more : List Action} {w w' : World} {events events' : List Event}
    (h : Disclosed lib cfg boot actions w events) (hpeer : w'.shared.status.peer = w.shared.status.peer)
    (hdialled : ∀ remote, w'.sender.pc = .connecting remote → w.sender.pc = .connecting remote)
    (hopened : ∀ session, w'.sender.pc = .established session → w.sender.pc = .established session)
    (hsession : ∀ session, w'.sender.session = some session → w.sender.session = some session) :
    Disclosed lib cfg boot (actions ++ more) w' (events ++ events') := by
  refine ⟨fun remote hpc => ?_, fun session hpc => ?_, fun session hheld => ?_⟩
  · rw [hpeer]
    exact h.dialled remote (hdialled remote hpc)
  · obtain ⟨remote, hto, haddress⟩ := h.opened session (hopened session hpc)
    exact ⟨remote, hto.append events', hpeer ▸ haddress⟩
  · obtain ⟨remote, info, hto, hgreeted, hknown⟩ := h.greeted session (hsession session hheld)
    exact ⟨remote, info, hto.append events', hgreeted.append more, hpeer ▸ hknown⟩

theorem finishFront_peer (s : State) (forwarded : Bool) (now : Instant) (wallMs : Nat) :
    (finishFront s forwarded now wallMs).status.peer = s.status.peer := by
  unfold finishFront
  cases s.queue <;> cases forwarded <;> rfl

/-- Away from a connection attempt the sender leaves the peer fields alone. -/
theorem senderStep_peer (i : SenderInput) (s : State) (t : Sender) (hdial : ∀ addresses, t.pc ≠ .dial addresses)
    (hconnecting : ∀ remote, t.pc ≠ .connecting remote) (hestablished : ∀ session, t.pc ≠ .established session) :
    let step := senderStep lib cfg i s t
    step.state.status.peer = s.status.peer ∧
      (∀ remote, step.sender.pc ≠ .connecting remote) ∧ (∀ session, step.sender.pc ≠ .established session) ∧
      ∀ session, step.sender.session = some session → t.session = some session := by
  intro step
  have hstep : senderStep lib cfg i s t = step := rfl
  clear_value step
  cases hpc : t.pc with
  | dial addresses => exact absurd hpc (hdial addresses)
  | connecting remote => exact absurd hpc (hconnecting remote)
  | established session => exact absurd hpc (hestablished session)
  | take | sent =>
      simp only [senderStep, hpc] at hstep
      repeat' split at hstep
      all_goals
        subst hstep
        refine ⟨?_, by simp, by simp, fun _ h => h⟩
        first | rfl | exact finishFront_peer s _ i.now i.wallMs
  | _ =>
      simp only [senderStep, hpc] at hstep
      repeat' split at hstep
      all_goals
        subst hstep
        refine ⟨rfl, by simp, by simp, fun _ h => ?_⟩
        first | exact h | cases h

theorem next_peer (w : World) {action : Action} (hother : ∀ i, action ≠ .sender i) :
    (World.next lib cfg w action).shared.status.peer = w.shared.status.peer := by
  cases action with
  | sender i => exact absurd rfl (hother i)
  | stop now =>
      show (stopRequest cfg now w.shared).status.peer = _
      unfold stopRequest
      split <;> rfl
  | join =>
      simp only [World.next]
      split <;> rfl
  | listener i =>
      simp only [World.next]
      cases hpc : w.listener with
      | check | exited => rfl
      | receiving =>
          simp only [listenStep]
          cases i.recv with
          | again | failed => rfl
          | datagram peer bytes =>
              simp only [receive]
              split <;> rfl

theorem Disclosed.next {actions : List Action} {events : List Event}
    (h : Disclosed lib cfg boot actions ((relay lib cfg boot).run actions) events)
    (hsound : Sound ((relay lib cfg boot).run actions)) (action : Action) :
    Disclosed lib cfg boot (actions ++ [action]) (World.next lib cfg ((relay lib cfg boot).run actions) action)
      (events ++ World.emit lib cfg ((relay lib cfg boot).run actions) action) := by
  generalize hw : (relay lib cfg boot).run actions = w at h hsound ⊢
  by_cases hsender : ∃ i, action = .sender i
  · obtain ⟨i, rfl⟩ := hsender
    have hsupplied := hsound.supplied
    have hfits := hsound.held.fits
    cases hpc : w.sender.pc with
    | dial addresses =>
        rw [hpc] at hsupplied hfits
        have hsession : w.sender.session = none := hfits.1
        have hlt : w.sender.attempts % addresses.length < addresses.length :=
          Nat.mod_lt _ (List.length_pos_iff.mpr hsupplied)
        simp only [World.next, World.emit, senderStep, hpc, List.getElem?_eq_getElem hlt]
        refine ⟨fun remote hnext => ?_, fun session hnext => ?_, fun session hheld => ?_⟩
        · rw [← Pc.connecting.inj hnext]
          rfl
        · cases hnext
        · rw [hsession] at hheld
          cases hheld
    | connecting remote =>
        rw [hpc] at hfits
        have hsession : w.sender.session = none := hfits.1
        have haddress := h.dialled remote hpc
        simp only [World.next, World.emit, senderStep, hpc]
        cases i.connect with
        | ok _ =>
            refine ⟨fun remote hnext => ?_, fun session hnext => ?_, fun session hheld => ?_⟩
            · cases hnext
            · rw [← Pc.established.inj hnext]
              exact ⟨remote, ⟨events, [], rfl⟩, haddress⟩
            · rw [hsession] at hheld
              cases hheld
        | error e =>
            refine h.aside rfl (fun remote hnext => ?_) (fun session hnext => ?_) (fun session hheld => hheld)
            · cases hnext
            · cases hnext
    | established session =>
        obtain ⟨remote, hto, haddress⟩ := h.opened session hpc
        simp only [World.next, World.emit, senderStep, hpc]
        refine ⟨fun remote hnext => ?_, fun session hnext => ?_, fun session' hheld => ?_⟩
        · cases hnext
        · cases hnext
        · obtain rfl := Option.some.inj hheld
          refine ⟨remote, i.peerInfo, hto.append _, ⟨actions, i, [], rfl, by rw [hw]; exact hpc, rfl⟩, ?_⟩
          have haddress : w.shared.status.remoteAddress = some remote.display := haddress
          simp only [Status.peer, haddress]
    | _ =>
        obtain ⟨hpeer, hdialled, hopened, hsession⟩ :=
          @senderStep_peer lib cfg i w.shared w.sender (by simp [hpc]) (by simp [hpc]) (by simp [hpc])
        exact h.aside hpeer (fun remote hnext => absurd hnext (hdialled remote))
          (fun session hnext => absurd hnext (hopened session)) hsession
  · have hother : ∀ i, action ≠ .sender i := fun i heq => hsender ⟨i, heq⟩
    have hsame := @World.next_sender_eq lib cfg w action hother
    refine h.aside (next_peer w hother) ?_ ?_ ?_ <;> rw [hsame] <;> exact fun _ heq => heq

theorem disclosed (actions : List Action) :
    Disclosed lib cfg boot actions ((relay lib cfg boot).run actions) ((relay lib cfg boot).trace actions) := by
  induction actions using List.reverseRecOn with
  | nil => exact Disclosed.start
  | append_singleton actions action ih =>
      have hnext := ih.next (sound actions) action
      rw [(relay lib cfg boot).run_append, (relay lib cfg boot).trace_append, Machine.runFrom_cons, Machine.runFrom_nil,
        Machine.traceFrom_cons, Machine.traceFrom_nil, List.append_nil]
      exact hnext

/-! ### The write in progress and the last error -/

/-- A retry has a reason, and a write is shown in progress while there is a frame to write; the sender clears
one after the other where it gives a session up, and at its end. -/
structure Explained (w : World) : Prop where
  error : w.shared.status.dtlsStatus = "retrying" → w.shared.status.lastError.isSome = true
  inFlight : w.sender.pc ≠ .done → (∀ error, w.sender.pc ≠ .failedStatus error) →
    w.shared.status.inFlight = w.sender.pendingFrame.isSome

theorem finishFront_explained (s : State) (forwarded : Bool) (now : Instant) (wallMs : Nat) :
    (finishFront s forwarded now wallMs).status.dtlsStatus = s.status.dtlsStatus ∧
      (finishFront s forwarded now wallMs).status.lastError = s.status.lastError ∧
      (finishFront s forwarded now wallMs).status.inFlight = false := by
  unfold finishFront
  cases s.queue <;> cases forwarded <;> exact ⟨rfl, rfl, rfl⟩

theorem Explained.sender {w : World} (h : Explained w) (hsound : Sound w) (i : SenderInput) :
    Explained (World.next lib cfg w (.sender i)) := by
  have hfits := hsound.held.fits
  have herror := h.error
  have hflight := h.inFlight
  simp only [World.next]
  cases hpc : w.sender.pc with
  | resolving =>
      rw [hpc] at hfits
      simp only [senderStep, hpc]
      refine ⟨fun htext => absurd (show "resolving" = "retrying" from htext) (by decide), fun _ _ => ?_⟩
      rw [hfits.2]
      rfl
  | dial addresses =>
      rw [hpc] at hflight
      simp only [senderStep, hpc]
      split
      · exact ⟨herror, fun _ _ => hflight (by simp) (by simp)⟩
      · exact ⟨fun htext => absurd (show "handshaking" = "retrying" from htext) (by decide), fun _ _ => hflight (by simp) (by simp)⟩
  | established session =>
      rw [hpc] at hfits hflight
      simp only [senderStep, hpc]
      refine ⟨fun htext => absurd (show "established" = "retrying" from htext) (by decide), fun _ _ => ?_⟩
      have hclear := hflight (by simp) (by simp)
      rw [hfits.2] at hclear
      exact hclear
  | retry error =>
      rw [hpc] at hflight
      simp only [senderStep, hpc]
      exact ⟨fun _ => rfl, fun _ _ => hflight (by simp) (by simp)⟩
  | take =>
      rw [hpc] at hfits hflight
      obtain ⟨session, hsession⟩ := Option.isSome_iff_exists.mp hfits.1
      simp only [senderStep, hpc, hsession]
      split
      · exact ⟨herror, fun _ _ => hflight (by simp) (by simp)⟩
      · exact ⟨herror, fun _ _ => hflight (by simp) (by simp)⟩
      · split
        · obtain ⟨htext, hlast, hclear⟩ := finishFront_explained w.shared false i.now i.wallMs
          refine ⟨fun heq => ?_, fun _ _ => ?_⟩
          · rw [hlast]
            exact herror (htext.symm.trans heq)
          · rw [hclear, hfits.2]
            rfl
        · exact ⟨herror, fun _ _ => rfl⟩
  | sent =>
      simp only [senderStep, hpc]
      obtain ⟨htext, hlast, hclear⟩ := finishFront_explained w.shared true i.now i.wallMs
      refine ⟨fun heq => ?_, fun _ _ => ?_⟩
      · rw [hlast]
        exact herror (htext.symm.trans heq)
      · rw [hclear]
        rfl
  | failed error =>
      rw [hpc] at hfits
      obtain ⟨session, hsession⟩ := Option.isSome_iff_exists.mp hfits
      simp only [senderStep, hpc, hsession]
      exact ⟨herror, fun _ hnone => absurd rfl (hnone error)⟩
  | failedStatus error =>
      rw [hpc] at hfits
      simp only [senderStep, hpc]
      refine ⟨fun _ => rfl, fun _ _ => ?_⟩
      rw [hfits.2]
      rfl
  | drain =>
      simp only [senderStep, hpc]
      exact ⟨fun htext => absurd (show "stopped" = "retrying" from htext) (by decide), fun hdone => absurd rfl hdone⟩
  | done =>
      simp only [senderStep, hpc]
      exact ⟨herror, fun hdone => absurd rfl hdone⟩
  | _ =>
      rw [hpc] at hflight
      simp only [senderStep, hpc]
      repeat' split
      all_goals exact ⟨herror, fun _ _ => hflight (by simp) (by simp)⟩

theorem Explained.other {w : World} (h : Explained w) (hsound : Sound w) {action : Action}
    (hother : ∀ i, action ≠ .sender i) : Explained (World.next lib cfg w action) := by
  have hsame := @World.next_sender_eq lib cfg w action hother
  cases action with
  | sender i => exact absurd rfl (hother i)
  | stop now =>
      show Explained { w with shared := stopRequest cfg now w.shared }
      unfold stopRequest
      split <;> exact ⟨h.error, h.inFlight⟩
  | join =>
      simp only [World.next]
      split
      · rename_i hended
        refine ⟨fun htext => absurd (show "stopped" = "retrying" from htext) (by decide), fun hdone => ?_⟩
        rcases hended.2 with hpc | hpc
        · exact absurd hpc hdone
        · have hsupplied := hsound.supplied
          rw [hpc] at hsupplied
          exact hsupplied.elim
      · exact h
  | listener i =>
      simp only [World.next]
      cases hpc : w.listener with
      | check | exited => exact ⟨h.error, h.inFlight⟩
      | receiving =>
          simp only [listenStep]
          cases i.recv with
          | again => exact ⟨h.error, h.inFlight⟩
          | failed error => exact ⟨fun _ => rfl, h.inFlight⟩
          | datagram peer bytes =>
              simp only [receive]
              split <;> exact ⟨h.error, h.inFlight⟩

theorem explained (actions : List Action) : Explained ((relay lib cfg boot).run actions) := by
  have hboth := (relay lib cfg boot).invariant (P := fun w => Sound w ∧ Explained w)
    ⟨Sound.start, fun htext => absurd (show "resolving" = "retrying" from htext) (by decide), fun _ _ => rfl⟩
    (fun w action h => by
      refine ⟨h.1.next action, ?_⟩
      by_cases hsender : ∃ i, action = .sender i
      · obtain ⟨i, rfl⟩ := hsender
        exact h.2.sender h.1 i
      · exact h.2.other h.1 fun i heq => hsender ⟨i, heq⟩) actions
  exact hboth.2

/-- The texts of successive statuses follow the life of an association, whatever the threads and `stop` do in
between; `retry_attempts` counts how often it began to retry; while a session is held the status says so, says
what is true of its peer, and shows a write in progress exactly when there is one. -/
theorem status_follows_the_association (lib : External) (cfg : Config) (boot : Boot) (actions : List Action)
    (now : Instant) :
    let relay := relay lib cfg boot
    let w := relay.run actions
    let status := snapshot w.shared now
    ∃ p : Standing, status.dtlsStatus = p.text ∧
      (∀ action then_, ∃ q : Standing,
        let status' := snapshot (relay.next w action).shared then_
        status'.dtlsStatus = q.text ∧ (q = p ∨ Standing.Step p q) ∧
          status'.retryAttempts = status.retryAttempts + if p ≠ q ∧ q = .retrying then 1 else 0) ∧
      (∀ session, w.sender.session = some session → p = .established ∧
        (∃ remote info, OpenedTo (relay.trace actions) session remote ∧
          Greeted lib cfg boot actions session info ∧
          status.peer = ⟨some remote.display, some info.fingerprint, some info.cipher, some info.protocol⟩) ∧
        status.inFlight = w.sender.pendingFrame.isSome) ∧
      (p = .established → w.sender.session.isSome = true ∨ w.sender.pc = .drain ∨
        ∃ error, w.sender.pc = .failedStatus error) ∧
      (p = .retrying → status.lastError.isSome = true) ∧
      (p = .stopped ↔ w.sender.pc = .done) := by
  intro relay w status
  have hsound : Sound w := sound actions
  have hexplained : Explained w := explained actions
  have hdisclosed : Disclosed lib cfg boot actions w (relay.trace actions) := disclosed actions
  obtain ⟨p, htext, hshows⟩ : ∃ p, w.InStanding p := standings actions
  obtain ⟨hestablished, hheld⟩ := hsound.established_iff hshows
  refine ⟨p, htext, fun action then_ => ?_, fun session hsession => ⟨?_, ?_, ?_⟩, hheld, fun hstanding => ?_, ?_⟩
  · obtain ⟨q, hgoes⟩ := hsound.standing_next ⟨htext, hshows⟩ action
    exact ⟨q, hgoes.text, hgoes.way, hgoes.retryAttempts⟩
  · exact hestablished (by rw [hsession]; rfl)
  · exact hdisclosed.greeted session hsession
  · have hfits := hsound.held.fits
    refine hexplained.inFlight (fun hpc => ?_) fun error hpc => ?_
    · rw [hpc] at hfits
      rw [show w.sender.session = none from hfits] at hsession
      cases hsession
    · rw [hpc] at hfits
      rw [hfits.1] at hsession
      cases hsession
  · rw [hstanding] at htext
    exact hexplained.error htext
  · exact stopped_iff hshows

end SyslogDtlsAgent
