import SyslogDtlsAgent.Proof.Config.Validate
import SyslogDtlsAgent.Proof.Relay.Moves

/-!
# Reconnect backoff

The delay of the sender as a function of what has happened: it doubles with every failure up to its
limit, and a write reported sent resets it. A failure is noticed some steps before its pause is taken and
the delay doubled, so the sender's place says which of the two delays is the stored one.
-/

namespace SyslogDtlsAgent

open Library

variable {lib : External} {cfg : Config} {boot : Boot}

/-- What the sender learns about its transport. -/
inductive Verdict where
  /-- A resolve or connect failed, a session failed, or a write timed out. -/
  | failed
  | sent
  deriving DecidableEq

def Pc.verdict : Pc → List Verdict
  | .connectFailed _ => [.failed]
  | .failed _ => [.failed]
  | .sent => [.sent]
  | _ => []

/-- What counts as a failure: one of the ways in which a lookup or a connect goes wrong, a session that fails, or
a write that takes too long. -/
inductive Fails (lib : External) (cfg : Config) (i : SenderInput) (s : State) (t : Sender) : Prop where
  | badName {error : String} (hpc : t.pc = .lookup) (hdns : t.dns = none)
      (hname : normalizeName lib cfg.remote.host = .error error)
  | noThread {error : String} (hpc : t.pc = .lookup) (hdns : t.dns = none) (hspawn : i.spawn = .error error)
  | stopping {until_ : Instant} (hpc : t.pc = .awaitCheck until_) (hexpired : expired s i.now = true)
  | noAddresses {until_ : Instant} {worker : Nat} (hpc : t.pc = .awaitRecv until_) (hdns : t.dns = some worker)
      (hrecv : i.recv = .result (.ok []))
  | lookup {until_ : Instant} {worker : Nat} {error : String} (hpc : t.pc = .awaitRecv until_)
      (hdns : t.dns = some worker) (hrecv : i.recv = .result (.error error))
  | lookupTimeout {until_ : Instant} {worker : Nat} (hpc : t.pc = .awaitRecv until_) (hdns : t.dns = some worker)
      (hrecv : i.recv = .timeout) (hlate : until_ ≤ i.now)
  | lookupStopped {until_ : Instant} {worker : Nat} (hpc : t.pc = .awaitRecv until_) (hdns : t.dns = some worker)
      (hrecv : i.recv = .disconnected)
  | connect {remote : SocketAddr} {error : String} (hpc : t.pc = .connecting remote)
      (hconnect : i.connect = .error error)
  | poll {session : Nat} {error : String} (hpc : t.pc = .polling) (hsession : t.session = some session)
      (hframe : t.pendingFrame = none) (hpoll : i.poll = .error error)
  | write {session : Nat} {bytes : Bytes} {error : String} (hpc : t.pc = .writing)
      (hframe : t.pendingFrame = some bytes) (hsession : t.session = some session) (hwrite : i.write = .error error)
  | writeTimeout {session : Nat} {bytes : Bytes} (hpc : t.pc = .writing) (hframe : t.pendingFrame = some bytes)
      (hsession : t.session = some session) (hwrite : i.write = .ok .wouldBlock)
      (hlate : fromMillis cfg.dtls.handshakeTimeoutMs < i.returned - t.writeStarted)

/-- A write that the session reports sent. -/
structure Acknowledges (i : SenderInput) (t : Sender) : Prop where
  pc : t.pc = .writing
  frame : t.pendingFrame.isSome = true
  session : t.session.isSome = true
  write : i.write = .ok .sent

theorem Fails.verdict {i : SenderInput} {s : State} {t : Sender} (h : Fails lib cfg i s t) :
    (senderStep lib cfg i s t).sender.pc.verdict = [.failed] := by
  cases h with
  | badName hpc hdns hname => simp [senderStep, hpc, hdns, hname, Pc.verdict]
  | noThread hpc hdns hspawn =>
      simp only [senderStep, hpc, hdns, hspawn]
      cases normalizeName lib cfg.remote.host <;> rfl
  | stopping hpc hexpired => simp [senderStep, hpc, hexpired, Pc.verdict]
  | noAddresses hpc hdns hrecv => simp [senderStep, hpc, hdns, hrecv, Pc.verdict]
  | lookup hpc hdns hrecv => simp [senderStep, hpc, hdns, hrecv, Pc.verdict]
  | lookupTimeout hpc hdns hrecv hlate => simp [senderStep, hpc, hdns, hrecv, hlate, Pc.verdict]
  | lookupStopped hpc hdns hrecv => simp [senderStep, hpc, hdns, hrecv, Pc.verdict]
  | connect hpc hconnect => simp [senderStep, hpc, hconnect, Pc.verdict]
  | poll hpc hsession hframe hpoll => simp [senderStep, hpc, hsession, hframe, hpoll, Pc.verdict]
  | write hpc hframe hsession hwrite => simp [senderStep, hpc, hframe, hsession, hwrite, Pc.verdict]
  | writeTimeout hpc hframe hsession hwrite hlate =>
      simp [senderStep, hpc, hframe, hsession, hwrite, hlate, Pc.verdict]

theorem Acknowledges.verdict {i : SenderInput} {s : State} {t : Sender} (h : Acknowledges i t) :
    (senderStep lib cfg i s t).sender.pc.verdict = [.sent] := by
  obtain ⟨bytes, hframe⟩ := Option.isSome_iff_exists.mp h.frame
  obtain ⟨session, hsession⟩ := Option.isSome_iff_exists.mp h.session
  simp [senderStep, h.pc, hframe, hsession, h.write, Pc.verdict]

/-- Nothing else is a verdict. -/
theorem senderStep_verdict (i : SenderInput) (s : State) (t : Sender) :
    (senderStep lib cfg i s t).sender.pc.verdict = [] ∨ Fails lib cfg i s t ∨ Acknowledges i t := by
  cases hpc : t.pc with
  | lookup =>
      by_cases hdns : t.dns = none
      · cases hname : normalizeName lib cfg.remote.host with
        | error e => exact .inr (.inl (.badName hpc hdns hname))
        | ok name =>
            cases hspawn : i.spawn with
            | error e => exact .inr (.inl (.noThread hpc hdns hspawn))
            | ok _ => exact .inl (by simp [senderStep, hpc, hdns, hname, hspawn, Pc.verdict])
      · have hsome : t.dns.isSome = true := Option.isSome_iff_ne_none.mpr hdns
        exact .inl (by simp [senderStep, hpc, hsome, Pc.verdict])
  | awaitCheck until_ =>
      by_cases hexpired : expired s i.now = true
      · exact .inr (.inl (.stopping hpc hexpired))
      · exact .inl (by simp [senderStep, hpc, hexpired, Pc.verdict])
  | awaitRecv until_ =>
      cases hdns : t.dns with
      | none => exact .inl (by simp [senderStep, hpc, hdns, Pc.verdict])
      | some worker =>
          cases hrecv : i.recv with
          | timeout =>
              by_cases hlate : until_ ≤ i.now
              · exact .inr (.inl (.lookupTimeout hpc hdns hrecv hlate))
              · exact .inl (by simp [senderStep, hpc, hdns, hrecv, hlate, Pc.verdict])
          | disconnected => exact .inr (.inl (.lookupStopped hpc hdns hrecv))
          | result found =>
              cases found with
              | error e => exact .inr (.inl (.lookup hpc hdns hrecv))
              | ok addresses =>
                  cases addresses with
                  | nil => exact .inr (.inl (.noAddresses hpc hdns hrecv))
                  | cons address rest => exact .inl (by simp [senderStep, hpc, hdns, hrecv, Pc.verdict])
  | connecting remote =>
      cases hconnect : i.connect with
      | error e => exact .inr (.inl (.connect hpc hconnect))
      | ok _ => exact .inl (by simp [senderStep, hpc, hconnect, Pc.verdict])
  | polling =>
      cases hsession : t.session with
      | none => exact .inl (by simp [senderStep, hpc, hsession, Pc.verdict])
      | some session =>
          cases hframe : t.pendingFrame with
          | some bytes => exact .inl (by simp [senderStep, hpc, hsession, hframe, Pc.verdict])
          | none =>
              cases hpoll : i.poll with
              | error e => exact .inr (.inl (.poll hpc hsession hframe hpoll))
              | ok _ => exact .inl (by simp [senderStep, hpc, hsession, hframe, hpoll, Pc.verdict])
  | writing =>
      cases hframe : t.pendingFrame with
      | none => exact .inl (by simp [senderStep, hpc, hframe, Pc.verdict])
      | some bytes =>
          cases hsession : t.session with
          | none => exact .inl (by simp [senderStep, hpc, hframe, hsession, Pc.verdict])
          | some session =>
              cases hwrite : i.write with
              | error e => exact .inr (.inl (.write hpc hframe hsession hwrite))
              | ok wrote =>
                  cases wrote with
                  | sent => exact .inr (.inr ⟨hpc, by simp [hframe], by simp [hsession], hwrite⟩)
                  | wouldBlock =>
                      by_cases hlate : fromMillis cfg.dtls.handshakeTimeoutMs < i.returned - t.writeStarted
                      · exact .inr (.inl (.writeTimeout hpc hframe hsession hwrite hlate))
                      · exact .inl (by simp [senderStep, hpc, hframe, hsession, hwrite, hlate, Pc.verdict])
  | _ =>
      left
      simp only [senderStep, hpc]
      repeat' split
      all_goals rfl

theorem verdict_failed_iff (i : SenderInput) (s : State) (t : Sender) :
    (senderStep lib cfg i s t).sender.pc.verdict = [.failed] ↔ Fails lib cfg i s t := by
  refine ⟨fun h => ?_, Fails.verdict⟩
  rcases @senderStep_verdict lib cfg i s t with hquiet | hfails | hsent
  · rw [hquiet] at h
    cases h
  · exact hfails
  · rw [hsent.verdict] at h
    cases h

theorem verdict_sent_iff (i : SenderInput) (s : State) (t : Sender) :
    (senderStep lib cfg i s t).sender.pc.verdict = [.sent] ↔ Acknowledges i t := by
  refine ⟨fun h => ?_, Acknowledges.verdict⟩
  rcases @senderStep_verdict lib cfg i s t with hquiet | hfails | hsent
  · rw [hquiet] at h
    cases h
  · rw [hfails.verdict] at h
    cases h
  · exact hsent

/-- The verdict of a step is read off the place it leads to. -/
def World.verdicts (lib : External) (cfg : Config) (w : World) : Action → List Verdict
  | .sender i => (senderStep lib cfg i w.shared w.sender).sender.pc.verdict
  | _ => []

/-- The relay as the verdicts of its sender. -/
def verdicts (lib : External) (cfg : Config) (boot : Boot) : Machine World Action Verdict :=
  { relay lib cfg boot with emit := World.verdicts lib cfg }

/-- The failures since the last write reported sent, or since the start. -/
def failuresSince (verdicts : List Verdict) : Nat := (verdicts.reverse.takeWhile (· = .failed)).length

@[simp] theorem failuresSince_failed (verdicts : List Verdict) :
    failuresSince (verdicts ++ [.failed]) = failuresSince verdicts + 1 := by
  simp [failuresSince]

@[simp] theorem failuresSince_sent (verdicts : List Verdict) : failuresSince (verdicts ++ [.sent]) = 0 := by
  simp [failuresSince]

/-- The delay after `k` failures. -/
def delayAfter (cfg : Config) (k : Nat) : Nat := min (cfg.dtls.retryInitialMs * 2 ^ k) cfg.dtls.retryMaxMs

theorem nextDelay_delayAfter (k : Nat) : nextDelay cfg (delayAfter cfg k) = delayAfter cfg (k + 1) := by
  simp only [nextDelay, delayAfter, pow_succ, ← Nat.mul_assoc]
  omega

/-- Which delay is the stored one. -/
inductive Phase where
  /-- Every failure so far has been paid for. -/
  | steady
  /-- A failure is known and its pause is still to come. -/
  | failing
  /-- A write was reported sent and the reset is still to come. -/
  | acknowledged
  | over
  deriving DecidableEq

def Pc.phase : Pc → Phase
  | .connectFailed _ | .retry _ | .backoff | .failed _ | .failedStatus _ | .failedPause => .failing
  | .sent | .pace => .acknowledged
  | .closing | .drain | .done | .panicked => .over
  | _ => .steady

/-- What a step of the sender does to the delay. -/
inductive Beat (cfg : Config) (t t' : Sender) : Prop where
  | stay (hphase : t'.pc.phase = t.pc.phase) (hverdict : t'.pc.verdict = []) (hdelay : t'.delay = t.delay)
  | fails (hphase : t.pc.phase = .steady) (hphase' : t'.pc.phase = .failing)
      (hverdict : t'.pc.verdict = [.failed]) (hdelay : t'.delay = t.delay)
  | sends (hphase' : t'.pc.phase = .acknowledged) (hverdict : t'.pc.verdict = [.sent])
      (hdelay : t'.delay = t.delay)
  | pauses (hphase : t.pc.phase = .failing) (hphase' : t'.pc.phase = .steady) (hverdict : t'.pc.verdict = [])
      (hdelay : t'.delay = nextDelay cfg t.delay)
  | resets (hphase : t.pc.phase = .acknowledged) (hphase' : t'.pc.phase = .steady)
      (hverdict : t'.pc.verdict = []) (hdelay : t'.delay = cfg.dtls.retryInitialMs)
  | leaves (hphase' : t'.pc.phase = .over) (hverdict : t'.pc.verdict = []) (hdelay : t'.delay = t.delay)

theorem sender_beat (i : SenderInput) (s : State) (t : Sender) : Beat cfg t (senderStep lib cfg i s t).sender := by
  cases hpc : t.pc with
  | backoff =>
      simp only [senderStep, hpc]
      exact .pauses (by rw [hpc]; rfl) rfl rfl rfl
  | failedPause =>
      simp only [senderStep, hpc]
      exact .pauses (by rw [hpc]; rfl) rfl rfl rfl
  | pace =>
      simp only [senderStep, hpc]
      exact .resets (by rw [hpc]; rfl) rfl rfl rfl
  | _ =>
      simp only [senderStep, hpc]
      repeat' split
      all_goals first
        | exact .stay (by rw [hpc]; rfl) rfl rfl
        | exact .fails (by rw [hpc]; rfl) rfl rfl rfl
        | exact .sends rfl rfl rfl
        | exact .leaves rfl rfl rfl

/-- The stored delay against the verdicts so far. -/
structure Delayed (cfg : Config) (t : Sender) (verdicts : List Verdict) : Prop where
  steady : t.pc.phase = .steady → t.delay = delayAfter cfg (failuresSince verdicts)
  failing : t.pc.phase = .failing → ∃ k, failuresSince verdicts = k + 1 ∧ t.delay = delayAfter cfg k
  acknowledged : t.pc.phase = .acknowledged → failuresSince verdicts = 0
  bounds : cfg.dtls.retryInitialMs ≤ t.delay ∧ t.delay ≤ cfg.dtls.retryMaxMs

/-- The delays that can be stored, if the limits are in order. -/
theorem delayAfter_bounds (hlimits : cfg.dtls.retryInitialMs ≤ cfg.dtls.retryMaxMs) (k : Nat) :
    cfg.dtls.retryInitialMs ≤ delayAfter cfg k ∧ delayAfter cfg k ≤ cfg.dtls.retryMaxMs := by
  have hpow : cfg.dtls.retryInitialMs * 1 ≤ cfg.dtls.retryInitialMs * 2 ^ k :=
    Nat.mul_le_mul_left _ Nat.one_le_two_pow
  rw [Nat.mul_one] at hpow
  exact ⟨le_min hpow hlimits, min_le_right _ _⟩

theorem Delayed.start (hlimits : cfg.dtls.retryInitialMs ≤ cfg.dtls.retryMaxMs) :
    Delayed cfg (Sender.start cfg boot) [] where
  steady _ := by simp [Sender.start, delayAfter, failuresSince, hlimits]
  failing h := by cases h
  acknowledged h := by cases h
  bounds := ⟨Nat.le_refl _, hlimits⟩

theorem Delayed.beat (hlimits : cfg.dtls.retryInitialMs ≤ cfg.dtls.retryMaxMs) {t t' : Sender}
    {verdicts : List Verdict} (h : Delayed cfg t verdicts) (hbeat : Beat cfg t t') :
    Delayed cfg t' (verdicts ++ t'.pc.verdict) := by
  cases hbeat with
  | stay hphase hverdict hdelay =>
      rw [hverdict, List.append_nil]
      constructor
      · rw [hdelay, hphase]
        exact h.steady
      · rw [hdelay, hphase]
        exact h.failing
      · rw [hphase]
        exact h.acknowledged
      · rw [hdelay]
        exact h.bounds
  | fails hphase hphase' hverdict hdelay =>
      rw [hverdict]
      refine ⟨by simp [hphase'], fun _ => ⟨_, failuresSince_failed _, ?_⟩, by simp [hphase'], hdelay ▸ h.bounds⟩
      rw [hdelay]
      exact h.steady hphase
  | sends hphase' hverdict hdelay =>
      rw [hverdict]
      exact ⟨by simp [hphase'], by simp [hphase'], fun _ => failuresSince_sent _, hdelay ▸ h.bounds⟩
  | pauses hphase hphase' hverdict hdelay =>
      obtain ⟨k, hk, hbefore⟩ := h.failing hphase
      have hnext : t'.delay = delayAfter cfg (k + 1) := by rw [hdelay, hbefore, nextDelay_delayAfter]
      rw [hverdict, List.append_nil]
      refine ⟨fun _ => hk ▸ hnext, by simp [hphase'], by simp [hphase'], ?_⟩
      rw [hnext]
      exact delayAfter_bounds hlimits _
  | resets hphase hphase' hverdict hdelay =>
      rw [hverdict, List.append_nil]
      refine ⟨fun _ => ?_, by simp [hphase'], by simp [hphase'], ?_⟩
      · rw [hdelay, h.acknowledged hphase, delayAfter, pow_zero, Nat.mul_one, min_eq_left hlimits]
      · rw [hdelay]
        exact ⟨Nat.le_refl _, hlimits⟩
  | leaves hphase' hverdict hdelay =>
      rw [hverdict, List.append_nil]
      exact ⟨by simp [hphase'], by simp [hphase'], by simp [hphase'], hdelay ▸ h.bounds⟩

theorem delayed (hlimits : cfg.dtls.retryInitialMs ≤ cfg.dtls.retryMaxMs) (actions : List Action) :
    Delayed cfg ((verdicts lib cfg boot).run actions).sender ((verdicts lib cfg boot).trace actions) := by
  have hquiet : ∀ w action, (∀ i, action ≠ .sender i) → World.verdicts lib cfg w action = [] := by
    intro w action hother
    cases action with
    | sender i => exact absurd rfl (hother i)
    | listener | stop | join => rfl
  apply sender_induction (World.verdicts lib cfg) hquiet (Delayed.start hlimits)
  intro w i so_far h
  exact h.beat hlimits (sender_beat i w.shared w.sender)

/-- The 64-bit arithmetic of both failure paths, for one stored delay and one jitter. -/
structure Exact (delay : Nat) (jitter : BitVec 64) : Prop where
  tripled : delay * 3 < 2 ^ 64
  divisor : 0 < delay / 2 + 1 ∧ delay / 2 + 1 < 2 ^ 64
  sum : delay * 3 / 4 + jitter.toNat % (delay / 2 + 1) < 2 ^ 64
  doubled : delay * 2 < 2 ^ 64

theorem Exact.of_le {delay : Nat} (h : delay ≤ 300000) (jitter : BitVec 64) : Exact delay jitter := by
  have hmod : jitter.toNat % (delay / 2 + 1) < delay / 2 + 1 := Nat.mod_lt _ (Nat.succ_pos _)
  constructor <;> omega

/-- The pause of a failed resolve or connect, for whatever jitter. -/
theorem backoffMs_bounds (delay : Nat) (jitter : BitVec 64) (retryMaxMs : Nat) :
    min (3 * delay / 4) retryMaxMs ≤ backoffMs delay jitter retryMaxMs ∧
      backoffMs delay jitter retryMaxMs ≤ min (3 * delay / 4 + delay / 2) retryMaxMs := by
  have hmod : jitter.toNat % (delay / 2 + 1) < delay / 2 + 1 := Nat.mod_lt _ (Nat.succ_pos _)
  unfold backoffMs
  omega

/-- In every run of an accepted configuration: the stored delay is a function of the failures since the
last write reported sent, each failure path pauses as long as it should, and no step overflows. What is counted
as a failure or as sent is what the outside did to the lookup, the connect, the session and the write. -/
theorem backoff_is_bounded_exponential (hvalid : cfg.validate lib = .ok ()) (actions : List Action) :
    let t := ((verdicts lib cfg boot).run actions).sender
    let s := ((verdicts lib cfg boot).run actions).shared
    let k := failuresSince ((verdicts lib cfg boot).trace actions)
    (t.pc.phase = .steady → t.delay = min (cfg.dtls.retryInitialMs * 2 ^ k) cfg.dtls.retryMaxMs) ∧
      (t.pc.phase = .failing →
        1 ≤ k ∧ t.delay = min (cfg.dtls.retryInitialMs * 2 ^ (k - 1)) cfg.dtls.retryMaxMs) ∧
      (t.pc = .backoff → ∀ i, ∃ ms,
        (senderStep lib cfg i s t).events = [.paused (fromMillis ms)] ∧
          3 * t.delay / 4 ≤ ms ∧ ms ≤ min (3 * t.delay / 4 + t.delay / 2) cfg.dtls.retryMaxMs ∧
          3 * cfg.dtls.retryInitialMs / 4 ≤ ms) ∧
      (t.pc = .failedPause → ∀ i,
        (senderStep lib cfg i s t).events = [.paused (fromMillis t.delay)] ∧
          cfg.dtls.retryInitialMs ≤ t.delay ∧ t.delay ≤ cfg.dtls.retryMaxMs) ∧
      (∀ jitter, Exact t.delay jitter) ∧
      ∀ i, ((senderStep lib cfg i s t).sender.pc.verdict = [.failed] ↔ Fails lib cfg i s t) ∧
        ((senderStep lib cfg i s t).sender.pc.verdict = [.sent] ↔ Acknowledges i t) := by
  obtain ⟨hsettings, -⟩ := Config.validate_eq_ok.mp hvalid
  have h := @delayed lib cfg boot hsettings.retryMax.1 actions
  intro t s k
  refine ⟨h.steady, fun hphase => ?_, fun hpc i => ?_, fun hpc i => ?_, fun jitter => ?_,
    fun i => ⟨verdict_failed_iff i s t, verdict_sent_iff i s t⟩⟩
  · obtain ⟨before, hk, hdelay⟩ := h.failing hphase
    have hk' : k - 1 = before := by omega
    exact ⟨by omega, by rw [hk', hdelay]; rfl⟩
  · refine ⟨backoffMs t.delay (nextJitter t.jitter) cfg.dtls.retryMaxMs, by simp [senderStep, hpc], ?_⟩
    have hbounds := backoffMs_bounds t.delay (nextJitter t.jitter) cfg.dtls.retryMaxMs
    have hlow : cfg.dtls.retryInitialMs ≤ t.delay := h.bounds.1
    have hhigh : t.delay ≤ cfg.dtls.retryMaxMs := h.bounds.2
    omega
  · exact ⟨by simp [senderStep, hpc], h.bounds⟩
  · exact Exact.of_le (h.bounds.2.trans hsettings.retryMax.2) jitter

/-- Two failed connects in a row quadruple the delay. -/
theorem backoff_is_bounded_exponential_by_default :
    let lib : External := ⟨fun _ => false, some, fun _ => none, fun _ => []⟩
    let boot : Boot := ⟨⟨.v4 0x7f000001#32, 1514⟩, "", 0, 0, 0, 0⟩
    let i : SenderInput :=
      ⟨0, 0, 0, .error "no thread", .disconnected, .error "refused", ⟨"", "", ""⟩, .error "closed", 0,
        .error "closed"⟩
    let outage := [.sender i, .sender i, .sender i, .sender i, .sender i, .sender i]
    ((verdicts lib Config.default boot).run (outage ++ outage)).sender.delay =
      min (1000 * 2 ^ 2) 60000 := by
  intro lib boot i outage
  have h := (@backoff_is_bounded_exponential lib Config.default boot (Config.default_valid lib rfl)
    (outage ++ outage)).1
  have hphase : ((verdicts lib Config.default boot).run (outage ++ outage)).sender.pc.phase = .steady := by
    decide +kernel
  have hfailures : failuresSince ((verdicts lib Config.default boot).trace (outage ++ outage)) = 2 := by
    decide +kernel
  have hdelay := h hphase
  rw [hfailures] at hdelay
  exact hdelay

end SyslogDtlsAgent
