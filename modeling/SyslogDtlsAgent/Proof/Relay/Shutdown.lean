import SyslogDtlsAgent.Proof.Config.Validate
import SyslogDtlsAgent.Proof.Relay.Ending
import SyslogDtlsAgent.Proof.Relay.Ledger

/-!
# How long a stop can take

`Pc.remaining` ranks the places of the sender so that, once its time is up, each of its steps goes down,
whatever the calls it makes return. The sender comes out at `done` rather than at `panicked`, because what
the source unwraps or indexes is always there: `Sound` says so for every place that does it.
-/

namespace SyslogDtlsAgent

open Library

variable {lib : External} {cfg : Config} {boot : Boot}

/-! ### The sender does not panic -/

/-- What the place of the sender relies on, beyond what `Held` says. -/
def Pc.Supplied (dns : Option Nat) : Pc → Prop
  | .awaitCheck _ | .awaitRecv _ => dns.isSome = true
  | .dial addresses => addresses ≠ []
  | .panicked => False
  | _ => True

structure Sound (w : World) : Prop where
  held : Held w
  supplied : w.sender.pc.Supplied w.sender.dns

theorem Sound.start : Sound (World.start cfg boot) := ⟨Held.start, trivial⟩

theorem Sound.sender {w : World} (h : Sound w) (i : SenderInput) :
    let step := senderStep lib cfg i w.shared w.sender
    step.sender.pc.Supplied step.sender.dns := by
  have hfits := h.held.fits
  have hsupplied := h.supplied
  generalize hstep : senderStep lib cfg i w.shared w.sender = step
  cases hpc : w.sender.pc with
  | lookup =>
      simp only [senderStep, hpc] at hstep
      split at hstep
      · rename_i hdns
        subst hstep
        exact hdns
      · split at hstep <;> subst hstep <;> trivial
  | awaitCheck until_ =>
      rw [hpc] at hsupplied
      simp only [senderStep, hpc] at hstep
      split at hstep <;> subst hstep
      · trivial
      · exact hsupplied
  | awaitRecv until_ =>
      rw [hpc] at hsupplied
      simp only [senderStep, hpc] at hstep
      split at hstep
      · rename_i hdns
        rw [hdns] at hsupplied
        cases hsupplied
      · split at hstep
        · subst hstep
          trivial
        · rename_i addresses hne hrecv
          subst hstep
          exact hne
        · subst hstep
          trivial
        · split at hstep <;> subst hstep
          · trivial
          · exact hsupplied
        · subst hstep
          trivial
  | dial addresses =>
      rw [hpc] at hsupplied
      have hlt : w.sender.attempts % addresses.length < addresses.length :=
        Nat.mod_lt _ (List.length_pos_iff.mpr hsupplied)
      simp only [senderStep, hpc, List.getElem?_eq_getElem hlt] at hstep
      subst hstep
      trivial
  | polling | writing | failed error =>
      rw [hpc] at hfits
      have hsession : w.sender.session.isSome = true := hfits
      obtain ⟨session, hsession⟩ := Option.isSome_iff_exists.mp hsession
      simp only [senderStep, hpc, hsession] at hstep
      repeat' split at hstep
      all_goals
        subst hstep
        trivial
  | take =>
      rw [hpc] at hfits
      obtain ⟨session, hsession⟩ := Option.isSome_iff_exists.mp hfits.1
      simp only [senderStep, hpc, hsession] at hstep
      repeat' split at hstep
      all_goals
        subst hstep
        trivial
  | panicked =>
      rw [hpc] at hsupplied
      exact hsupplied.elim
  | _ =>
      simp only [senderStep, hpc] at hstep
      repeat' split at hstep
      all_goals
        subst hstep
        trivial

theorem Sound.next {w : World} (h : Sound w) (action : Action) : Sound (World.next lib cfg w action) := by
  refine ⟨h.held.move (move_next w action), ?_⟩
  cases action with
  | sender i => exact h.sender i
  | _ =>
      rw [World.next_sender_eq w (fun _ h => by cases h)]
      exact h.supplied

theorem sound (actions : List Action) : Sound ((relay lib cfg boot).run actions) :=
  (relay lib cfg boot).invariant Sound.start (fun _ action h => h.next action) actions

/-- In every run nothing the sender unwraps, indexes, divides by or subtracts from is missing: it never gets
to `panicked`, the bytes of the head are counted in `queue_bytes` when it is removed, and the time between
two writes is one by a positive number. -/
theorem sender_never_panics (hvalid : cfg.validate lib = .ok ()) (actions : List Action) :
    let w := (relay lib cfg boot).run actions
    w.sender.pc ≠ .panicked ∧
      (∀ until_, w.sender.pc = .awaitRecv until_ → w.sender.dns.isSome = true) ∧
      (∀ addresses, w.sender.pc = .dial addresses →
        0 < addresses.length ∧ w.sender.attempts % addresses.length < addresses.length) ∧
      (w.sender.pc.place = .online ∨ w.sender.pc.place = .fetching → w.sender.session.isSome = true) ∧
      (∀ m rest, w.shared.queue = m :: rest → m.payload.length ≤ w.shared.status.queueBytes) ∧
      0 < cfg.dtls.messagesPerSecond := by
  intro w
  have hsound : Sound w := sound actions
  have hledger : Ledger cfg w.shared := ledger actions
  have hsupplied := hsound.supplied
  have hfits := hsound.held.fits
  refine ⟨fun hpc => ?_, fun until_ hpc => ?_, fun addresses hpc => ?_, fun hplace => ?_, fun m rest hqueue => ?_,
    (Config.validate_eq_ok.mp hvalid).1.messagesPerSecond.1⟩
  · rw [hpc] at hsupplied
    exact hsupplied
  · rw [hpc] at hsupplied
    exact hsupplied
  · rw [hpc] at hsupplied
    have hlength : 0 < addresses.length := List.length_pos_iff.mpr hsupplied
    exact ⟨hlength, Nat.mod_lt _ hlength⟩
  · rcases hplace with hplace | hplace <;> rw [hplace] at hfits
    · exact hfits
    · exact hfits.1
  · rw [hledger.bytes, hqueue, queuedBytes_cons]
    exact Nat.le_add_right _ _

/-- Two passes of an offline sender. -/
theorem sender_never_panics_offline :
    let lib : External := ⟨fun _ => false, some, fun _ => none, fun _ => []⟩
    let boot : Boot := ⟨⟨.v4 0x7f000001#32, 1514⟩, "", 0, 0, 0, 0⟩
    ((relay lib Config.default boot).run (List.replicate 12 (.sender (.failing 0)))).sender.pc ≠ .panicked := by
  intro lib boot
  exact (@sender_never_panics lib Config.default boot
    (Config.default_valid lib rfl) (List.replicate 12 (.sender (.failing 0)))).1

/-! ### Ranks -/

/-- How many steps the sender has left, at most, once its time is up. -/
def Pc.remaining : Pc → Nat
  | .done | .panicked => 0
  | .drain => 1
  | .closing => 2
  | .top | .connectFailed _ => 3
  | .awaitCheck _ | .backoff | .failedPause | .idle => 4
  | .lookup | .retry _ | .failedStatus _ | .pace => 5
  | .resolving | .failed _ | .sent => 6
  | .writing => 7
  | .take => 8
  | .fetch => 9
  | .polling => 10
  | .established _ => 11
  | .connecting _ => 12
  | .dial _ => 13
  | .awaitRecv _ => 14

theorem Pc.remaining_le (pc : Pc) : pc.remaining ≤ 14 := by
  cases pc <;> simp only [Pc.remaining] <;> omega

/-- Past the stop time every step of the sender goes down, whatever the calls it makes return. -/
theorem senderStep_remaining {i : SenderInput} {s : State} (hexpired : expired s i.now = true) (t : Sender) :
    (senderStep lib cfg i s t).sender.pc.remaining ≤ t.pc.remaining - 1 := by
  obtain ⟨at_, hstop, hpast⟩ : ∃ at_, s.stopAt = some at_ ∧ at_ ≤ i.now := by
    unfold expired at hexpired
    cases hat : s.stopAt with
    | none => simp [hat] at hexpired
    | some at_ => exact ⟨at_, rfl, by simpa [hat] using hexpired⟩
  generalize hstep : senderStep lib cfg i s t = step
  cases hpc : t.pc with
  | top =>
      simp only [senderStep, hpc, hstop, Option.any_some, hpast, decide_true, Bool.true_or, if_true] at hstep
      subst hstep
      exact Nat.le_refl _
  | fetch =>
      simp only [senderStep, hpc] at hstep
      split at hstep <;> subst hstep <;> simp only [Pc.remaining] <;> omega
  | _ =>
      simp only [senderStep, hpc, hexpired, if_true] at hstep
      repeat' split at hstep
      all_goals
        subst hstep
        simp only [Pc.remaining]
        omega

def ListenPc.remaining : ListenPc → Nat
  | .exited => 0
  | .check => 1
  | .receiving => 2

/-- After a stop was requested every step of the listener goes down. -/
theorem listenStep_remaining {i : ListenerInput} {s : State} (hstop : s.stopAt.isSome = true) (pc : ListenPc) :
    (listenStep lib cfg i s pc).2.1.remaining ≤ pc.remaining - 1 := by
  cases pc with
  | check =>
      simp only [listenStep, hstop, if_true]
      exact Nat.le_refl _
  | receiving =>
      simp only [listenStep]
      cases i.recv with
      | datagram | again | failed => simp only [ListenPc.remaining]; omega
  | exited => exact Nat.le_refl _

/-! ### Along a run -/

def Action.isSender : Action → Bool
  | .sender _ => true
  | _ => false

def Action.isListener : Action → Bool
  | .listener _ => true
  | _ => false

/-- The clock readings of both threads and of `stop`, in the order they are made. -/
def clock (actions : List Action) : List Instant :=
  actions.flatMap fun
    | .listener i => [i.now]
    | .sender i => [i.now, i.returned]
    | .stop now => [now]
    | .join => []

/-- The stop time lies before every clock reading to come, and the clock never goes back. -/
def Overdue (w : World) (actions : List Action) : Prop :=
  ∃ at_, w.shared.stopAt = some at_ ∧ (at_ :: clock actions).Pairwise (· ≤ ·)

theorem stopRequest_stopAt {now : Instant} {s : State} (hstop : s.stopAt.isSome = true) :
    stopRequest cfg now s = s := by
  unfold stopRequest
  rw [if_neg]
  rw [Option.isNone_iff_eq_none]
  exact Option.isSome_iff_ne_none.mp hstop

/-- The stop time is only moved by a listener failure, to the reading of the clock it takes. -/
theorem next_stopAt (lib : External) (cfg : Config) {w : World} {at_ : Instant} (hstop : w.shared.stopAt = some at_) (action : Action) :
    (World.next lib cfg w action).shared.stopAt = some at_ ∨
      ∃ i, action = .listener i ∧ (World.next lib cfg w action).shared.stopAt = some i.now := by
  cases action with
  | sender i => exact .inl ((senderStep_flags lib cfg i w.shared w.sender).1.trans hstop)
  | stop now =>
      left
      show (stopRequest cfg now w.shared).stopAt = some at_
      rw [stopRequest_stopAt (Option.isSome_of_eq_some hstop)]
      exact hstop
  | join =>
      left
      simp only [World.next]
      split <;> exact hstop
  | listener i =>
      simp only [World.next]
      cases hpc : w.listener with
      | check | exited => exact .inl hstop
      | receiving =>
          simp only [listenStep]
          cases i.recv with
          | again => exact .inl hstop
          | failed error => exact .inr ⟨i, rfl, rfl⟩
          | datagram peer bytes =>
              left
              simp only [receive]
              split <;> exact hstop

theorem Overdue.next {w : World} {action : Action} {rest : List Action} (h : Overdue w (action :: rest)) :
    Overdue (World.next lib cfg w action) rest := by
  obtain ⟨at_, hstop, hclock⟩ := h
  rw [clock, List.flatMap_cons, ← clock] at hclock
  rcases next_stopAt lib cfg hstop action with hsame | ⟨i, rfl, hmoved⟩
  · refine ⟨at_, hsame, ?_⟩
    exact hclock.sublist (List.Sublist.cons_cons _ (List.sublist_append_right _ _))
  · exact ⟨i.now, hmoved, (List.pairwise_cons.mp hclock).2⟩

theorem Overdue.expired {w : World} {i : SenderInput} {rest : List Action} (h : Overdue w (.sender i :: rest)) :
    expired w.shared i.now = true := by
  obtain ⟨at_, hstop, hclock⟩ := h
  have hpast : at_ ≤ i.now := (List.pairwise_cons.mp hclock).1 i.now (List.mem_cons_self ..)
  simp only [SyslogDtlsAgent.expired, hstop, Option.any_some, hpast, decide_true]

theorem Overdue.sender_remaining (lib : External) (cfg : Config) (boot : Boot) {w : World} {actions : List Action}
    (h : Overdue w actions) :
    ((relay lib cfg boot).runFrom w actions).sender.pc.remaining ≤
      w.sender.pc.remaining - actions.countP Action.isSender := by
  refine (relay lib cfg boot).rank_le (fun w => w.sender.pc.remaining) (fun w action rest h => ?_) h
  refine ⟨h.next, ?_⟩
  cases action with
  | sender i => exact senderStep_remaining h.expired w.sender
  | listener i => exact Nat.le_refl _
  | stop now => exact Nat.le_refl _
  | join => exact (congrArg (fun t : Sender => t.pc.remaining) (World.next_sender_eq w (fun _ h => by cases h))).le

theorem Overdue.listener_remaining (lib : External) (cfg : Config) (boot : Boot) {w : World}
    {actions : List Action} (h : Overdue w actions) :
    ((relay lib cfg boot).runFrom w actions).listener.remaining ≤
      w.listener.remaining - actions.countP Action.isListener := by
  refine (relay lib cfg boot).rank_le (fun w => w.listener.remaining) (fun w action rest h => ?_) h
  refine ⟨h.next, ?_⟩
  obtain ⟨at_, hstop, -⟩ := h
  cases action with
  | listener i => exact listenStep_remaining (Option.isSome_of_eq_some hstop) w.listener
  | sender i => exact Nat.le_refl _
  | stop now => exact Nat.le_refl _
  | join =>
      show (World.next lib cfg w .join).listener.remaining ≤ _
      simp only [World.next]
      split <;> exact Nat.le_refl _

/-! ### What a stop leaves to do -/

/-- Once a stop was requested the queue only loses messages from its head. -/
theorem Move.queue_suffix {w w' : World} {events : List Event} (hmove : Move lib cfg w w' events)
    (hstop : w.shared.stopAt.isSome = true) : w'.shared.queue <:+ w.shared.queue := by
  cases hmove with
  | quiet shared => exact shared.queue ▸ List.suffix_rfl
  | established session hpc hshared => exact hshared.queue ▸ List.suffix_rfl
  | accepted ip payload wallMs hrefusal =>
      rw [show w.shared.stopAt = none from (refusal_eq_none.mp hrefusal).2.1] at hstop
      cases hstop
  | oversized i session m rest hpc hsession hqueue =>
      show (finishFront w.shared false i.now i.wallMs).queue <:+ w.shared.queue
      rw [finishFront_queue hqueue, hqueue]
      exact List.suffix_cons m rest
  | forwarded i hpc =>
      show (finishFront w.shared true i.now i.wallMs).queue <:+ w.shared.queue
      cases hqueue : w.shared.queue with
      | nil => simp only [finishFront, hqueue, List.suffix_rfl]
      | cons m rest =>
          rw [finishFront_queue hqueue]
          exact List.suffix_cons m rest
  | drained => exact List.nil_suffix
  | refused | connectFailed | opened | polled | taken | wrote | closed => exact List.suffix_rfl

/-- The datagram the listener may be receiving. -/
def ListenPc.datagrams : ListenPc → Nat
  | .receiving => 1
  | .check | .exited => 0

/-- The datagrams counted so far and the one the listener may be receiving. -/
def World.datagrams (w : World) : Nat := w.shared.status.messagesReceived + w.listener.datagrams

theorem finishFront_messagesReceived (s : State) (forwarded : Bool) (now : Instant) (wallMs : Nat) :
    (finishFront s forwarded now wallMs).status.messagesReceived = s.status.messagesReceived := by
  unfold finishFront
  cases s.queue <;> cases forwarded <;> rfl

theorem senderStep_messagesReceived (i : SenderInput) (s : State) (t : Sender) :
    (senderStep lib cfg i s t).state.status.messagesReceived = s.status.messagesReceived := by
  generalize hstep : senderStep lib cfg i s t = step
  cases hpc : t.pc with
  | sent =>
      simp only [senderStep, hpc] at hstep
      subst hstep
      exact finishFront_messagesReceived s true i.now i.wallMs
  | take =>
      simp only [senderStep, hpc] at hstep
      repeat' split at hstep
      all_goals
        subst hstep
        first | rfl | exact finishFront_messagesReceived s false i.now i.wallMs
  | _ =>
      simp only [senderStep, hpc] at hstep
      repeat' split at hstep
      all_goals
        subst hstep
        rfl

theorem receive_messagesReceived (s : State) (peer : IpAddr) (datagram : Bytes) (wallMs : Nat) :
    (receive lib cfg s peer datagram wallMs).1.status.messagesReceived = s.status.messagesReceived + 1 := by
  simp only [receive]
  split <;> rfl

/-- Once a stop was requested the listener counts no datagram but the one it may be receiving. -/
theorem next_datagrams {w : World} (hstop : w.shared.stopAt.isSome = true) (action : Action) :
    (World.next lib cfg w action).datagrams ≤ w.datagrams := by
  cases action with
  | sender i =>
      show (senderStep lib cfg i w.shared w.sender).state.status.messagesReceived + _ ≤ _
      rw [senderStep_messagesReceived]
      exact Nat.le_refl _
  | stop now =>
      simp only [World.next, stopRequest_stopAt hstop]
      exact Nat.le_refl _
  | join =>
      simp only [World.next]
      split <;> exact Nat.le_refl _
  | listener i =>
      obtain ⟨recv, now, wallMs⟩ := i
      obtain ⟨shared, listener, sender⟩ := w
      have hstop : shared.stopAt.isSome = true := hstop
      cases listener with
      | check => simp only [World.datagrams, World.next, listenStep, hstop, if_true, Nat.le_refl, ListenPc.datagrams]
      | exited => exact Nat.le_refl _
      | receiving =>
          cases recv with
          | again => exact Nat.le_add_right _ _
          | failed error => exact Nat.le_add_right _ _
          | datagram peer bytes => exact (receive_messagesReceived shared peer bytes wallMs).le

/-- The sender leaves with the relay's status no longer running. -/
def Closed (w : World) : Prop := w.sender.pc = .done → w.shared.status.running = false

theorem senderStep_done {i : SenderInput} {s : State} {t : Sender}
    (hdone : (senderStep lib cfg i s t).sender.pc = .done) : t.pc = .drain ∨ t.pc = .done := by
  generalize hstep : senderStep lib cfg i s t = step at hdone
  cases hpc : t.pc with
  | drain => exact .inl rfl
  | done => exact .inr rfl
  | _ =>
      simp only [senderStep, hpc] at hstep
      repeat' split at hstep
      all_goals
        subst hstep
        cases hdone

theorem closed (actions : List Action) : Closed ((relay lib cfg boot).run actions) := by
  apply (relay lib cfg boot).invariant (P := Closed) (fun h => by cases h)
  intro w action h hdone
  cases action with
  | listener i => exact (listenStep_flags lib cfg i w.shared w.listener).1.trans (h hdone)
  | stop now =>
      show (stopRequest cfg now w.shared).status.running = false
      unfold stopRequest
      split <;> exact h hdone
  | join =>
      have hsame : (World.next lib cfg w .join).sender = w.sender := World.next_sender_eq w (fun _ h => by cases h)
      have hbefore : w.sender.pc = .done := hsame ▸ hdone
      simp only [relay, World.next]
      split
      · rfl
      · exact h hbefore
  | sender i =>
      show (senderStep lib cfg i w.shared w.sender).state.status.running = false
      by_cases hdrain : w.sender.pc = .drain
      · simp only [senderStep, hdrain, drain]
      · rw [(senderStep_flags lib cfg i w.shared w.sender).2 hdrain]
        exact h ((senderStep_done hdone).resolve_left hdrain)

theorem stopAt_kept {w : World} (hstop : w.shared.stopAt.isSome = true) (action : Action) :
    (World.next lib cfg w action).shared.stopAt.isSome = true := by
  obtain ⟨at_, hat⟩ := Option.isSome_iff_exists.mp hstop
  rcases next_stopAt lib cfg hat action with hsame | ⟨i, -, hmoved⟩
  · rw [hsame]
    rfl
  · rw [hmoved]
    rfl

/-- After a stop was requested the relay counts at most one more datagram, queues none and takes messages
only from the head of its queue. -/
theorem stopped_input (lib : External) (cfg : Config) (boot : Boot) {w : World} (hstop : w.shared.stopAt.isSome = true) (actions : List Action) :
    let w' := (relay lib cfg boot).runFrom w actions
    w'.shared.queue <:+ w.shared.queue ∧ w'.datagrams ≤ w.datagrams := by
  have h := (relay lib cfg boot).invariant_from
    (P := fun w' => w'.shared.stopAt.isSome = true ∧ w'.shared.queue <:+ w.shared.queue ∧
      w'.datagrams ≤ w.datagrams)
    (fun w' action h => ⟨stopAt_kept h.1 action, ((move_next w' action).queue_suffix h.1).trans h.2.1,
      (next_datagrams h.1 action).trans h.2.2⟩)
    ⟨hstop, List.suffix_rfl, Nat.le_refl _⟩ actions
  exact h.2

/-- Once a stop was requested and its time is up, with a clock that does not go back: the sender ends within
14 of its own steps, whatever the calls it makes return, and the listener within 2 of its own, in any
interleaving. Until then at most one more datagram is counted and none is queued; then the queue is empty,
the status is not running, and `stop` returns with the sender's counters. -/
theorem shutdown_is_bounded (earlier later : List Action) {at_ : Instant}
    (hstop : ((relay lib cfg boot).run earlier).shared.stopAt = some at_)
    (hclock : (at_ :: clock later).Pairwise (· ≤ ·)) :
    let w := (relay lib cfg boot).run earlier
    let w' := (relay lib cfg boot).run (earlier ++ later)
    w'.shared.queue <:+ w.shared.queue ∧
      w'.shared.status.messagesReceived ≤ w.shared.status.messagesReceived + 1 ∧
      (14 ≤ later.countP Action.isSender →
        w'.sender.pc = .done ∧ w'.sender.session = none ∧ w'.shared.queue = [] ∧
          w'.shared.status.running = false) ∧
      (2 ≤ later.countP Action.isListener → w'.listener = .exited) ∧
      (14 ≤ later.countP Action.isSender → 2 ≤ later.countP Action.isListener →
        (World.next lib cfg w' .join).shared = stopFinish w'.shared) := by
  intro w w'
  have hrun : w' = (relay lib cfg boot).runFrom w later := Machine.run_append ..
  have hoverdue : Overdue w later := ⟨at_, hstop, hclock⟩
  obtain ⟨hqueue, hdatagrams⟩ := stopped_input lib cfg boot
    (Option.isSome_of_eq_some hstop) later
  rw [← hrun] at hqueue hdatagrams
  have hsender := Overdue.sender_remaining lib cfg boot hoverdue
  have hlistener := Overdue.listener_remaining lib cfg boot hoverdue
  rw [← hrun] at hsender hlistener
  have hdone : 14 ≤ later.countP Action.isSender → w'.sender.pc = .done := by
    intro hcount
    have hsound : Sound w' := sound (earlier ++ later)
    have hzero : w'.sender.pc.remaining = 0 := by
      have := w.sender.pc.remaining_le
      omega
    cases hpc : w'.sender.pc with
    | done => rfl
    | panicked =>
        have hsupplied := hsound.supplied
        rw [hpc] at hsupplied
        exact hsupplied.elim
    | _ => rw [hpc] at hzero; cases hzero
  have hexited : 2 ≤ later.countP Action.isListener → w'.listener = .exited := by
    intro hcount
    have hzero : w'.listener.remaining = 0 := by
      have : w.listener.remaining ≤ 2 := by cases w.listener <;> simp [ListenPc.remaining]
      omega
    cases hpc : w'.listener with
    | exited => rfl
    | check | receiving => rw [hpc] at hzero; cases hzero
  refine ⟨hqueue, ?_, fun hcount => ?_, hexited, fun hsenders hlisteners => ?_⟩
  · have hone : w.listener.datagrams ≤ 1 := by cases w.listener <;> simp [ListenPc.datagrams]
    have hcounted : w'.shared.status.messagesReceived + w'.listener.datagrams ≤
        w.shared.status.messagesReceived + w.listener.datagrams := hdatagrams
    omega
  · have hheld : Held w' := held (earlier ++ later)
    have hplace : w'.sender.pc.place = .done := by rw [hdone hcount]; rfl
    have hfits := hheld.fits
    rw [hplace] at hfits
    exact ⟨hdone hcount, hfits, hheld.done hplace, closed (earlier ++ later) (hdone hcount)⟩
  · simp only [World.next, if_pos (And.intro (hexited hlisteners) (Or.inl (hdone hsenders)))]

/-- `stop` with the default drain of two seconds, while a message waits and its session takes no more. -/
theorem shutdown_is_bounded_by_default :
    let lib : External := ⟨fun _ => false, some, fun _ => none, fun _ => []⟩
    let boot : Boot := ⟨⟨.v4 0x7f000001#32, 1514⟩, "", 0, 0, 0, 0⟩
    let slow (now : Instant) : SenderInput :=
      ⟨now, now, 0, .ok (), .result (.ok [⟨.v4 0x0a000001#32, 6514⟩]), .ok (), ⟨"", "", ""⟩, .ok (), 1200,
        .ok .wouldBlock⟩
    let earlier : List Action :=
      [.listener ⟨.again, 0, 0⟩, .listener ⟨.datagram (.v4 0x7f000001#32) (asBytes "<34>1 - h a p m -"), 0, 0⟩] ++
        List.replicate 11 (.sender (slow 0)) ++ [.listener ⟨.again, 0, 0⟩, .stop 0]
    let later : List Action :=
      List.replicate 14 (.sender (slow 2)) ++ List.replicate 2 (.listener ⟨.again, 2, 0⟩)
    (((relay lib Config.default boot).run earlier).shared.queue.length = 1 ∧
      ((relay lib Config.default boot).run earlier).sender.session = some 0 ∧
      ((relay lib Config.default boot).run earlier).sender.pendingFrame.isSome = true ∧
      ((relay lib Config.default boot).run earlier).listener = .receiving) ∧
    (((relay lib Config.default boot).run (earlier ++ later)).sender.pc = .done ∧
      ((relay lib Config.default boot).run (earlier ++ later)).sender.session = none ∧
      ((relay lib Config.default boot).run (earlier ++ later)).shared.queue = [] ∧
      ((relay lib Config.default boot).run (earlier ++ later)).shared.status.running = false) ∧
    ((relay lib Config.default boot).run (earlier ++ later)).listener = .exited := by
  intro lib boot slow earlier later
  have hstop : ((relay lib Config.default boot).run earlier).shared.stopAt = some 2 := by decide +kernel
  obtain ⟨-, -, hdone, hexited, -⟩ := shutdown_is_bounded earlier later hstop (by decide +kernel)
  exact ⟨by decide +kernel, hdone (by decide +kernel), hexited (by decide +kernel)⟩

end SyslogDtlsAgent
