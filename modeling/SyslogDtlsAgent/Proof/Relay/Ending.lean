import SyslogDtlsAgent.Proof.Relay.Held

/-!
# How a relay ends by itself

A relay that `stop` has not been called on ends through its listener: a socket failure sets the stop
time as the listener leaves its loop, and the sender takes the status out of `running` with its last
critical section. `Unasked` says so for every such relay; its consequence is that a relay whose status
is not running has no thread left. A relay that was asked to stop is never out of reach of its end:
`Pc.distance` counts the steps its sender is away.
-/

namespace SyslogDtlsAgent

open Library

variable {lib : External} {cfg : Config} {boot : Boot}

theorem finishFront_flags (s : State) (forwarded : Bool) (now : Instant) (wallMs : Nat) :
    (finishFront s forwarded now wallMs).stopAt = s.stopAt ∧
      (finishFront s forwarded now wallMs).status.running = s.status.running := by
  unfold finishFront
  cases s.queue <;> cases forwarded <;> exact ⟨rfl, rfl⟩

/-- The sender never sets the stop time, and only its drain ends the running status. -/
theorem senderStep_flags (lib : External) (cfg : Config) (i : SenderInput) (s : State) (t : Sender) :
    (senderStep lib cfg i s t).state.stopAt = s.stopAt ∧
      (t.pc ≠ .drain → (senderStep lib cfg i s t).state.status.running = s.status.running) := by
  generalize hstep : senderStep lib cfg i s t = step
  cases hpc : t.pc with
  | drain =>
      simp only [senderStep, hpc] at hstep
      subst hstep
      exact ⟨rfl, fun h => absurd rfl h⟩
  | take =>
      simp only [senderStep, hpc] at hstep
      split at hstep
      · subst hstep
        exact ⟨rfl, fun _ => rfl⟩
      · subst hstep
        exact ⟨rfl, fun _ => rfl⟩
      · obtain ⟨hstop, hrunning⟩ := finishFront_flags s false i.now i.wallMs
        split at hstep <;> subst hstep
        · exact ⟨hstop, fun _ => hrunning⟩
        · exact ⟨rfl, fun _ => rfl⟩
  | sent =>
      simp only [senderStep, hpc] at hstep
      subst hstep
      obtain ⟨hstop, hrunning⟩ := finishFront_flags s true i.now i.wallMs
      exact ⟨hstop, fun _ => hrunning⟩
  | _ =>
      simp only [senderStep, hpc] at hstep
      repeat' split at hstep
      all_goals
        subst hstep
        exact ⟨rfl, fun _ => rfl⟩

/-- The listener never ends the running status, and leaves its loop when it sets the stop time. -/
theorem listenStep_flags (lib : External) (cfg : Config) (i : ListenerInput) (s : State) (pc : ListenPc) :
    (listenStep lib cfg i s pc).1.status.running = s.status.running ∧
      ((listenStep lib cfg i s pc).1.stopAt = s.stopAt ∨ (listenStep lib cfg i s pc).2.1 = .exited) := by
  cases pc with
  | check => exact ⟨rfl, .inl rfl⟩
  | exited => exact ⟨rfl, .inl rfl⟩
  | receiving =>
      simp only [listenStep]
      cases i.recv with
      | again => exact ⟨rfl, .inl rfl⟩
      | failed error => exact ⟨rfl, .inr rfl⟩
      | datagram peer bytes =>
          simp only [receive]
          split <;> exact ⟨rfl, .inl rfl⟩

theorem listenStep_exited (i : ListenerInput) (s : State) :
    listenStep lib cfg i s .exited = (s, .exited, []) := rfl

/-- A relay nobody has asked to stop. -/
structure Unasked (w : World) : Prop where
  held : Held w
  finished : w.shared.status.running = false → w.sender.pc = .done
  exited : w.shared.stopAt.isSome = true → w.listener = .exited

theorem Unasked.start : Unasked (World.start cfg boot) :=
  ⟨Held.start, nofun, nofun⟩

theorem Unasked.listener {w : World} (h : Unasked w) (i : ListenerInput) :
    Unasked (World.next lib cfg w (.listener i)) := by
  obtain ⟨hrunning, hstop⟩ := listenStep_flags lib cfg i w.shared w.listener
  refine ⟨h.held.move (move_next w (.listener i)), fun hended => ?_, fun hsome => ?_⟩
  · exact h.finished (hrunning.symm.trans hended)
  · rcases hstop with hsame | hexited
    · have hbefore : w.listener = .exited := h.exited (hsame ▸ hsome)
      simp only [World.next, hbefore, listenStep_exited]
    · exact hexited

theorem Unasked.sender {w : World} (h : Unasked w) (i : SenderInput) :
    Unasked (World.next lib cfg w (.sender i)) := by
  obtain ⟨hstop, hrunning⟩ := senderStep_flags lib cfg i w.shared w.sender
  refine ⟨h.held.move (move_next w (.sender i)), fun hended => ?_, fun hsome => ?_⟩
  · simp only [World.next] at hended ⊢
    by_cases hdrain : w.sender.pc = .drain
    · simp only [senderStep, hdrain]
    · have hdone : w.sender.pc = .done := h.finished ((hrunning hdrain).symm.trans hended)
      simp only [senderStep, hdone]
  · exact h.exited (hstop ▸ hsome)

/-- Once its status is not running, both threads have ended and the stop time is set. -/
theorem Unasked.ended {w : World} (h : Unasked w) (hended : w.shared.status.running = false) :
    w.listener = .exited ∧ w.sender.pc = .done ∧ w.shared.stopAt.isSome = true := by
  have hdone := h.finished hended
  have hstop := h.held.leaving (by rw [hdone]; rfl)
  exact ⟨h.exited hstop, hdone, hstop⟩

/-! ### Ending when asked to -/

/-- How many steps the sender is from its end when every call it makes fails and its time is up. -/
def Pc.distance : Pc → Nat
  | .done | .panicked => 0
  | .drain => 1
  | .closing => 2
  | .top | .connectFailed _ => 3
  | .awaitCheck _ | .awaitRecv _ | .connecting _ | .backoff | .failedPause | .idle => 4
  | .lookup | .dial _ | .retry _ | .failedStatus _ | .pace => 5
  | .resolving | .failed _ | .sent => 6
  | .writing => 7
  | .take => 8
  | .fetch => 9
  | .polling => 10
  | .established _ => 11

/-- The inputs with which every call fails. -/
def SenderInput.failing (now : Instant) : SenderInput where
  now
  returned := now
  wallMs := 0
  spawn := .error ""
  recv := .timeout
  connect := .error ""
  peerInfo := ⟨"", "", ""⟩
  poll := .error ""
  maxPlaintext := 0
  write := .error ""

theorem senderStep_advances (lib : External) (cfg : Config) (s : State) (t : Sender) {at_ : Instant}
    (hstop : s.stopAt = some at_) (hpc : t.pc.distance ≠ 0) :
    ∃ i, (senderStep lib cfg i s t).sender.pc.distance < t.pc.distance := by
  have hexpired : expired s at_ = true := by
    simp only [expired, hstop, Option.any_some, le_refl, decide_true]
  cases hplace : t.pc with
  | done | panicked => exact absurd (by rw [hplace]; rfl) hpc
  | awaitRecv until_ =>
      refine ⟨.failing until_, ?_⟩
      generalize hstep : senderStep lib cfg (.failing until_) s t = step
      simp only [senderStep, hplace, SenderInput.failing, le_refl, if_true] at hstep
      split at hstep <;> subst hstep <;> simp only [Pc.distance] <;> omega
  | fetch =>
      refine ⟨.failing at_, ?_⟩
      simp only [senderStep, hplace]
      split <;> simp only [Pc.distance] <;> omega
  | _ =>
      refine ⟨.failing at_, ?_⟩
      generalize hstep : senderStep lib cfg (.failing at_) s t = step
      simp only [senderStep, hplace, SenderInput.failing, hexpired, hstop, Option.any_some, le_refl, decide_true,
        Bool.true_or, if_true] at hstep
      repeat' split at hstep
      all_goals
        subst hstep
        simp only [Pc.distance]
        omega

end SyslogDtlsAgent
