import SyslogDtlsAgent.Cli.Service
import SyslogDtlsAgent.Library.Supervisor
import SyslogDtlsAgent.Proof.Relay.Ending

/-!
# The agent and its relay agree

A relay is over when both its threads have ended and its status is not running; nothing its threads can
still do changes it. `CommandTurn` says what one step of the main thread can do, `Consistent` is the invariant
of the agent over every interleaving, and `Progress` follows a single command from the idle state it was
called in.
-/

namespace SyslogDtlsAgent

open Library

variable {lib : External} {codec : Codec}

/-! ### Relays that are over -/

namespace Launched

/-- One of its threads has not ended, or its status is running. -/
def Alive (relay : Launched) : Prop := ¬ relay.Ended ∨ relay.world.shared.status.running = true

instance (relay : Launched) : Decidable relay.Alive := inferInstanceAs (Decidable (_ ∨ _))

/-- The relay after its threads have taken some steps, and no one else. -/
def runs (lib : External) (relay : Launched) (steps : List ThreadStep) : Launched :=
  steps.foldl (fun relay step => relay.next lib step.action) relay

theorem runs_concat (relay : Launched) (steps : List ThreadStep) (step : ThreadStep) :
    relay.runs lib (steps ++ [step]) = (relay.runs lib steps).next lib step.action := by
  simp only [runs, List.foldl_append, List.foldl_cons, List.foldl_nil]

theorem not_alive {relay : Launched} :
    ¬ relay.Alive ↔ relay.Ended ∧ relay.world.shared.status.running = false := by
  simp only [Alive, not_or, not_not, Bool.not_eq_true]

/-- Threads that have ended take no more steps. -/
theorem next_of_ended {relay : Launched} (h : relay.Ended) (step : ThreadStep) :
    relay.next lib step.action = relay := by
  obtain ⟨config, shared, listener, sender⟩ := relay
  obtain ⟨hlistener, hsender⟩ := h
  simp only at hlistener hsender
  subst hlistener
  cases step with
  | listener i => rfl
  | sender i =>
      rcases hsender with hpc | hpc <;>
      · simp only [next, ThreadStep.action, World.next, senderStep, hpc]
        rw [← hpc]

theorem alive_of_next {relay : Launched} {step : ThreadStep} (h : (relay.next lib step.action).Alive) :
    relay.Alive := by
  by_contra hover
  rw [next_of_ended (not_alive.mp hover).1] at h
  exact hover h

theorem unasked_next {relay : Launched} (h : Unasked relay.world) (step : ThreadStep) :
    Unasked (relay.next lib step.action).world := by
  cases step with
  | listener i => exact h.listener i
  | sender i => exact h.sender i

/-- A relay that stopped by itself is over. -/
theorem over_of_unasked {relay : Launched} (h : Unasked relay.world)
    (hended : relay.world.shared.status.running = false) : ¬ relay.Alive := by
  obtain ⟨hlistener, hsender, -⟩ := h.ended hended
  exact not_alive.mpr ⟨⟨hlistener, .inl hsender⟩, hended⟩

/-- Asking a relay to stop that stopped by itself changes nothing. -/
theorem next_stop_of_over {relay : Launched} (h : Unasked relay.world) (hover : ¬ relay.Alive)
    (now : Instant) : relay.next lib (.stop now) = relay := by
  have hstop := (h.ended (not_alive.mp hover).2).2.2
  have hsome : relay.world.shared.stopAt.isNone = false := by
    rw [← Option.not_isSome, hstop]
    rfl
  simp only [next, World.next, stopRequest, hsome, Bool.false_eq_true, if_false]

/-- Asking a relay to stop ends none of its threads. -/
theorem alive_of_stop {relay : Launched} {now : Instant} (h : (relay.next lib (.stop now)).Alive) :
    relay.Alive := by
  refine h.imp_right fun hrunning => ?_
  simp only [next, World.next, stopRequest] at hrunning
  split at hrunning <;> exact hrunning

/-- A relay whose threads were joined is over. -/
theorem over_of_join {relay : Launched} (h : relay.Ended) : ¬ (relay.next lib .join).Alive := by
  have hjoin : World.next lib relay.config relay.world .join =
      { relay.world with shared := stopFinish relay.world.shared } := if_pos h
  refine not_alive.mpr ?_
  simp only [next, hjoin, Ended]
  exact ⟨h, rfl⟩

end Launched

/-! ### What the main thread can do -/

/-- Before a command has got as far as `Agent::stop`. -/
def CommandPc.early : CommandPc → Bool
  | .idle | .loading | .applying _ _ => true
  | _ => false

inductive CommandTurn (lib : External) (codec : Codec) (s : Service) : Service → List Returned → Prop where
  | wait (hpc : s.pc ≠ .idle) : CommandTurn lib codec s s []
  /-- A command returns and leaves everything as it is. -/
  | answer (name : String) (result : Except Failure Json) (hpc : s.pc.early = true) :
      CommandTurn lib codec s { s with pc := .idle } [⟨name, result⟩]
  | panic (name : String) (hpc : s.pc.early = true) :
      CommandTurn lib codec s { s with pc := .panicked } [⟨name, .error .panic⟩]
  /-- A command goes on to its first look at the relay, or to `Agent::stop`. -/
  | proceed {pc : CommandPc} (hpc : s.pc = .idle)
      (hnext : pc = .loading ∨ pc = .stopping none ∨ ∃ name config, pc = .applying name config) :
      CommandTurn lib codec s { s with pc } []
  | saved (name : String) (config : Config) (value : Json) (now : Instant) (hpc : s.pc.early = true)
      (hended : (s.status now).running = false) :
      CommandTurn lib codec s { s with config, pc := .idle } [⟨name, .ok value⟩]
  /-- A `start` finds the relay not running and goes on to reap it. -/
  | reap (config : Config) (now : Instant) (hpc : s.pc.early = true)
      (hended : (s.status now).running = false) :
      CommandTurn lib codec s { s with pc := .stopping (some config) } []
  | absent (next : Option Config) (hpc : s.pc = .stopping next) (hrelay : s.relay = none) :
      CommandTurn lib codec s (s.stopped codec next).1 (s.stopped codec next).2
  | asked (next : Option Config) (relay : Launched) (now : Instant) (hpc : s.pc = .stopping next)
      (hrelay : s.relay = some relay) :
      CommandTurn lib codec s { s with relay := some (relay.next lib (.stop now)), pc := .joining next } []
  | joined (next : Option Config) (relay : Launched) (now : Instant) (hpc : s.pc = .joining next)
      (hrelay : s.relay = some relay) (hended : relay.Ended) {after : Service}
      (hafter : after = { s with
        relay := none
        last := snapshot (relay.next lib .join).world.shared now
        past := relay.next lib .join :: s.past }) :
      CommandTurn lib codec s (after.stopped codec next).1 (after.stopped codec next).2
  /-- `Relay::start` fails. -/
  | unstarted (config : Config) (message : String) (hpc : s.pc = .starting config) :
      CommandTurn lib codec s { s with pc := .idle } [⟨"start", .error (.error message)⟩]
  | started (config : Config) (boot : Boot) (hpc : s.pc = .starting config) :
      CommandTurn lib codec s
        { s with
          relay := some ⟨config, World.start config boot⟩
          config
          past := s.relay.toList ++ s.past
          pc := .started }
        []
  | reported (value : Json) (hpc : s.pc = .started) :
      CommandTurn lib codec s { s with pc := .idle } [⟨"start", .ok value⟩]

theorem Launched.start_eq_ok {config : Config} {boot : Except String Boot} {relay : Launched}
    (h : Launched.start lib config boot = .ok relay) :
    ∃ b, relay = ⟨config, World.start config b⟩ := by
  unfold Launched.start at h
  cases hvalid : config.validate lib with
  | error message =>
      rw [hvalid] at h
      cases h
  | ok _ =>
      rw [hvalid] at h
      cases boot with
      | error message => cases h
      | ok b =>
          cases h
          exact ⟨b, rfl⟩

theorem turn_configure (s : Service) (i : CommandInput) (hpc : s.pc = .idle) :
    CommandTurn lib codec s (s.configure lib codec i).1 (s.configure lib codec i).2 := by
  have hearly : s.pc.early = true := by simp only [hpc, CommandPc.early]
  unfold Service.configure
  split
  · exact .answer _ _ hearly
  split
  · exact .panic _ hearly
  simp only
  split
  · exact .answer _ _ hearly
  split
  · split
    · exact .answer _ _ hearly
    · exact .answer _ _ hearly
  · exact .proceed hpc (.inr (.inr ⟨_, _, rfl⟩))

/-- Every step of the main thread is one of the turns. -/
theorem turn_commandStep (s : Service) (i : CommandInput) :
    CommandTurn lib codec s (s.commandStep lib codec i).1 (s.commandStep lib codec i).2 := by
  cases hpc : s.pc with
  | idle =>
      have hearly : s.pc.early = true := by simp only [hpc, CommandPc.early]
      simp only [Service.commandStep, hpc]
      split
      · exact .answer _ _ hearly
      · exact .answer _ _ hearly
      · exact .proceed hpc (.inr (.inl rfl))
      · split
        · exact .answer _ _ hearly
        · exact .answer _ _ hearly
      · exact .proceed hpc (.inl rfl)
      · exact turn_configure s i hpc
      · exact turn_configure s i hpc
      · exact turn_configure s i hpc
      · exact .answer _ _ hearly
  | loading =>
      have hearly : s.pc.early = true := by simp only [hpc, CommandPc.early]
      simp only [Service.commandStep, hpc]
      split
      · exact .answer _ _ hearly
      split
      · exact .answer _ _ hearly
      · exact .answer _ _ hearly
  | applying name config =>
      have hearly : s.pc.early = true := by simp only [hpc, CommandPc.early]
      simp only [Service.commandStep, hpc]
      split
      · exact .answer _ _ hearly
      rename_i hrunning
      have hended : (s.status i.now).running = false := by simpa using hrunning
      split
      · split
        · exact .answer _ _ hearly
        · exact .saved name config _ i.now hearly hended
      · split
        · exact .answer _ _ hearly
        · exact .reap config i.now hearly hended
  | stopping next =>
      simp only [Service.commandStep, hpc]
      split
      · rename_i hrelay
        exact .absent next hpc hrelay
      · rename_i relay hrelay
        exact .asked next relay i.now hpc hrelay
  | joining next =>
      have hwait : s.pc ≠ .idle := by
        rw [hpc]
        exact nofun
      simp only [Service.commandStep, hpc]
      split
      · exact .wait hwait
      · rename_i relay hrelay
        split
        · rename_i hended
          exact .joined next relay i.now hpc hrelay hended (by rw [hpc])
        · exact .wait hwait
  | starting config =>
      simp only [Service.commandStep, hpc]
      split
      · exact .unstarted config _ hpc
      · rename_i relay hstart
        obtain ⟨boot, rfl⟩ := Launched.start_eq_ok hstart
        exact .started config boot hpc
  | started =>
      simp only [Service.commandStep, hpc]
      exact .reported _ hpc
  | panicked =>
      simp only [Service.commandStep, hpc]
      refine .wait ?_
      rw [hpc]
      exact nofun

/-! ### The invariant of the agent -/

/-- What the place of the main thread says about the agent's relay. -/
def CommandPc.Fits (relay : Option Launched) : CommandPc → Prop
  | .stopping (some _) => ∀ r ∈ relay, Unasked r.world ∧ ¬ r.Alive
  | .joining none => True
  | .joining (some _) => ∀ r ∈ relay, ¬ r.Alive
  | .starting _ => relay = none
  | _ => ∀ r ∈ relay, Unasked r.world

structure Consistent (s : Service) : Prop where
  past : ∀ r ∈ s.past, ¬ r.Alive
  settings : ∀ r ∈ s.relay, r.Alive → s.config = r.config
  fits : s.pc.Fits s.relay
  last : s.last.running = false

theorem Consistent.start (config : Config) (path : String) (boot : Boot) :
    Consistent (Service.start config path boot) := by
  have hfirst : ∀ r ∈ (Service.start config path boot).relay, r = ⟨config, World.start config boot⟩ :=
    fun r hr => (Option.mem_some_iff.mp hr).symm
  refine ⟨fun r hr => absurd hr List.not_mem_nil, fun r hr _ => ?_, fun r hr => ?_, rfl⟩
  · rw [hfirst r hr]
    rfl
  · rw [hfirst r hr]
    exact Unasked.start

theorem CommandPc.Fits.relay {relay : Option Launched} {pc : CommandPc} (h : pc.Fits relay)
    (step : ThreadStep) :
    pc.Fits (relay.map fun r => r.next lib step.action) := by
  have hmap {P : Launched → Prop} (hnext : ∀ r, P r → P (r.next lib step.action))
      (hall : ∀ r ∈ relay, P r) :
      ∀ r ∈ relay.map (fun r => r.next lib step.action), P r := by
    intro r hr
    obtain ⟨before, hbefore, rfl⟩ := Option.mem_map.mp hr
    exact hnext before (hall before hbefore)
  have hunasked : ∀ r : Launched, Unasked r.world → Unasked (r.next lib step.action).world :=
    fun r hr => Launched.unasked_next hr step
  have hover : ∀ r : Launched, ¬ r.Alive → ¬ (r.next lib step.action).Alive :=
    fun r hr halive => hr (Launched.alive_of_next halive)
  cases pc with
  | idle | loading | applying | started | panicked => exact hmap hunasked h
  | stopping next =>
      cases next with
      | none => exact hmap hunasked h
      | some config => exact hmap (fun r hr => ⟨hunasked r hr.1, hover r hr.2⟩) h
  | joining next =>
      cases next with
      | none => trivial
      | some config => exact hmap hover h
  | starting config =>
      cases h
      rfl

theorem CommandPc.Fits.early {relay : Option Launched} {pc : CommandPc} (h : pc.Fits relay)
    (hpc : pc.early = true) : ∀ r ∈ relay, Unasked r.world := by
  cases pc with
  | idle | loading | applying => exact h
  | stopping | joining | starting | started | panicked => cases hpc

/-- A relay found not running before anyone asked it to stop is over. -/
theorem Service.over_of_status {s : Service} {now : Instant} (h : ∀ r ∈ s.relay, Unasked r.world)
    (hended : (s.status now).running = false) : ∀ r ∈ s.relay, ¬ r.Alive := by
  intro r hr
  have hrelay : s.relay = some r := hr
  rw [Service.status, hrelay] at hended
  exact Launched.over_of_unasked (h r hr) hended

theorem Consistent.relay {s : Service} (h : Consistent s) (step : ThreadStep) :
    Consistent (s.next lib codec (.relay step)) := by
  refine ⟨h.past, fun r hr halive => ?_, h.fits.relay step, h.last⟩
  obtain ⟨before, hbefore, rfl⟩ := Option.mem_map.mp hr
  exact h.settings before hbefore (Launched.alive_of_next halive)

/-- The threads of relays that are over do nothing. -/
theorem Launched.modify_past {past : List Launched} (h : ∀ r ∈ past, ¬ r.Alive) (n : Nat) (step : ThreadStep) :
    past.modify n (fun r => r.next lib step.action) = past := by
  apply List.ext_getElem?
  intro k
  rw [List.getElem?_modify]
  cases hget : past[k]? with
  | none => rfl
  | some r =>
      have hended := (Launched.not_alive.mp (h r (List.mem_of_getElem? hget))).1
      simp only [Option.map_eq_map, Option.map_some, Launched.next_of_ended hended, ite_self]

/-- The threads of the relays the agent has let go of do nothing. -/
theorem Consistent.next_past {s : Service} (h : Consistent s) (n : Nat) (step : ThreadStep) :
    s.next lib codec (.past n step) = s := by
  simp only [Service.next, Launched.modify_past h.past]

theorem no_relay {relay : Option Launched} {P : Launched → Prop} (h : relay = none) : ∀ r ∈ relay, P r :=
  fun r hr => absurd (h ▸ hr) (Option.not_mem_none r)

theorem Consistent.turn {s s' : Service} {events : List Returned} (h : Consistent s)
    (hturn : CommandTurn lib codec s s' events) : Consistent s' := by
  have hfits := h.fits
  cases hturn with
  | wait => exact h
  | answer name result hpc => exact ⟨h.past, h.settings, hfits.early hpc, h.last⟩
  | panic name hpc => exact ⟨h.past, h.settings, hfits.early hpc, h.last⟩
  | proceed hpc hnext =>
      have hunasked := hfits.early (by rw [hpc]; rfl)
      refine ⟨h.past, h.settings, ?_, h.last⟩
      rcases hnext with rfl | rfl | ⟨name, config, rfl⟩ <;> exact hunasked
  | saved name config value now hpc hended =>
      have hunasked := hfits.early hpc
      have hover := Service.over_of_status hunasked hended
      exact ⟨h.past, fun r hr halive => absurd halive (hover r hr), hunasked, h.last⟩
  | reap config now hpc hended =>
      have hunasked := hfits.early hpc
      have hover := Service.over_of_status hunasked hended
      exact ⟨h.past, h.settings, fun r hr => ⟨hunasked r hr, hover r hr⟩, h.last⟩
  | absent next hpc hrelay =>
      cases next with
      | none => exact ⟨h.past, h.settings, no_relay hrelay, h.last⟩
      | some config => exact ⟨h.past, h.settings, hrelay, h.last⟩
  | asked next relay now hpc hrelay =>
      refine ⟨h.past, fun r hr halive => ?_, ?_, h.last⟩
      · obtain rfl : relay.next lib (.stop now) = r := Option.mem_some_iff.mp hr
        exact h.settings relay hrelay (Launched.alive_of_stop halive)
      · cases next with
        | none => trivial
        | some config =>
            intro r hr halive
            obtain rfl : relay.next lib (.stop now) = r := Option.mem_some_iff.mp hr
            rw [hpc] at hfits
            exact (hfits relay hrelay).2 (Launched.alive_of_stop halive)
  | joined next relay now hpc hrelay hended hafter =>
      subst hafter
      have hpast : ∀ r ∈ relay.next lib .join :: s.past, ¬ r.Alive :=
        List.forall_mem_cons.mpr ⟨Launched.over_of_join hended, h.past⟩
      have hlast : (relay.next lib .join).world.shared.status.running = false :=
        (Launched.not_alive.mp (Launched.over_of_join hended)).2
      cases next with
      | none => exact ⟨hpast, no_relay rfl, no_relay rfl, hlast⟩
      | some config => exact ⟨hpast, no_relay rfl, rfl, hlast⟩
  | unstarted config message hpc =>
      rw [hpc] at hfits
      exact ⟨h.past, h.settings, no_relay hfits, h.last⟩
  | started config boot hpc =>
      rw [hpc] at hfits
      have hpast : s.relay.toList ++ s.past = s.past := by
        rw [show s.relay = none from hfits, Option.toList_none, List.nil_append]
      refine ⟨?_, fun r hr _ => ?_, fun r hr => ?_, h.last⟩
      · rw [hpast]
        exact h.past
      · rw [← Option.mem_some_iff.mp hr]
      · rw [← Option.mem_some_iff.mp hr]
        exact Unasked.start
  | reported value hpc =>
      rw [hpc] at hfits
      exact ⟨h.past, h.settings, hfits, h.last⟩

theorem Consistent.next {s : Service} (h : Consistent s) (action : ServiceAction) :
    Consistent (s.next lib codec action) := by
  cases action with
  | command i => exact h.turn (turn_commandStep s i)
  | relay step => exact h.relay step
  | past n step => exact (h.next_past n step).symm ▸ h

/-! ### One command -/

/-- The counters of messages in a status record. -/
structure Counters where
  received : Nat
  forwarded : Nat
  dropped : Nat
  drops : Drops

def Status.counters (status : Status) : Counters :=
  ⟨status.messagesReceived, status.messagesForwarded, status.messagesDropped, status.drops⟩

/-- No command has stopped, replaced or started a relay: the one the agent had is still the one it has, and
only its own threads have taken steps. -/
structure Kept (lib : External) (s s' : Service) : Prop where
  config : s'.config = s.config
  past : s'.past = s.past
  last : s'.last = s.last
  relay : ∃ steps, s'.relay = s.relay.map fun r => r.runs lib steps

/-- The agent has reaped a relay that was over, and nothing has been put in its place. -/
structure Reaped (lib : External) (s s' : Service) (final : Launched) : Prop where
  ended : ¬ final.Alive
  config : s'.config = s.config
  past : s'.past = final.next lib .join :: s.past
  relay : s'.relay = none
  status : ∀ now, (s'.status now).running = false ∧
    (s'.status now).counters = final.world.shared.status.counters

/-- The relay reaped is the one the agent had, after it ended by itself. -/
def ReapedOwn (lib : External) (s s' : Service) : Prop :=
  ∃ relay steps, s.relay = some relay ∧ Reaped lib s s' (relay.runs lib steps)

/-- Before a command has changed a relay that was not over. -/
def CommandPc.harmless : CommandPc → Bool
  | .idle | .loading | .applying _ _ | .stopping _ | .joining (some _) => true
  | _ => false

/-- How far the commands called since the idle state `s` have come. -/
structure Progress (lib : External) (s s' : Service) (returned : List Returned) : Prop where
  path : s'.path = s.path
  early : returned = [] → s'.pc.harmless = true → Kept lib s s'
  starting : returned = [] → ∀ config, s'.pc = .starting config → Kept lib s s' ∨ ReapedOwn lib s s'
  failed : ∀ name message, returned = [⟨name, .error (.error message)⟩] → s'.pc = .idle →
    Kept lib s s' ∨ name = "start" ∧ ReapedOwn lib s s'

theorem Kept.refl (s : Service) : Kept lib s s :=
  ⟨rfl, rfl, rfl, [], by cases h : s.relay <;> rfl⟩

theorem Kept.step {s s' : Service} (h : Kept lib s s') (step : ThreadStep) :
    Kept lib s (s'.next lib codec (.relay step)) := by
  obtain ⟨steps, hsteps⟩ := h.relay
  refine ⟨h.config, h.past, h.last, steps ++ [step], ?_⟩
  simp only [Service.next, hsteps, Option.map_map]
  congr 1
  funext r
  exact (r.runs_concat steps step).symm

theorem Kept.goto {s s' : Service} (h : Kept lib s s') (pc : CommandPc) : Kept lib s { s' with pc } :=
  ⟨h.config, h.past, h.last, h.relay⟩

theorem Reaped.step {s s' : Service} {final : Launched} (h : Reaped lib s s' final) (step : ThreadStep) :
    Reaped lib s (s'.next lib codec (.relay step)) final := by
  have hsame : s'.next lib codec (.relay step) = s' := by
    obtain ⟨config, path, relay, last, pc, past⟩ := s'
    obtain rfl : relay = none := h.relay
    rfl
  rw [hsame]
  exact h

theorem ReapedOwn.step {s s' : Service} (h : ReapedOwn lib s s') (step : ThreadStep) :
    ReapedOwn lib s (s'.next lib codec (.relay step)) := by
  obtain ⟨relay, steps, hrelay, hreaped⟩ := h
  exact ⟨relay, steps, hrelay, hreaped.step step⟩

theorem ReapedOwn.goto {s s' : Service} (h : ReapedOwn lib s s') (pc : CommandPc) :
    ReapedOwn lib s { s' with pc } := by
  obtain ⟨relay, steps, hrelay, hreaped⟩ := h
  exact ⟨relay, steps, hrelay, hreaped.ended, hreaped.config, hreaped.past, hreaped.relay, hreaped.status⟩

/-- Joining a relay that is over reaps it. -/
theorem Kept.joined {s s' : Service} {relay : Launched} {now : Instant} {pc : CommandPc} (h : Kept lib s s')
    (hrelay : s'.relay = some relay) (hover : ¬ relay.Alive) :
    ReapedOwn lib s
      { s' with
        relay := none
        last := snapshot (relay.next lib .join).world.shared now
        past := relay.next lib .join :: s'.past
        pc } := by
  obtain ⟨steps, hsteps⟩ := h.relay
  obtain ⟨before, hbefore, rfl⟩ := Option.map_eq_some_iff.mp (hsteps.symm.trans hrelay)
  have hjoin : World.next lib (before.runs lib steps).config (before.runs lib steps).world .join =
      { (before.runs lib steps).world with shared := stopFinish (before.runs lib steps).world.shared } :=
    if_pos (Launched.not_alive.mp hover).1
  refine ⟨before, steps, hbefore, hover, h.config, ?_, rfl, fun _ => ?_⟩
  · rw [← h.past]
  · simp only [Service.status, Launched.next, hjoin]
    exact ⟨rfl, rfl⟩

theorem Progress.start {s : Service} (hpc : s.pc = .idle) : Progress lib s s [] := by
  refine ⟨rfl, fun _ _ => Kept.refl s, fun _ config hstarting => ?_, nofun⟩
  cases hpc.symm.trans hstarting

theorem Progress.relay {s s' : Service} {returned : List Returned} (h : Progress lib s s' returned)
    (step : ThreadStep) : Progress lib s (s'.next lib codec (.relay step)) returned where
  path := h.path
  early hnone hpc := (h.early hnone hpc).step step
  starting hnone config hpc := (h.starting hnone config hpc).imp (·.step step) (·.step step)
  failed name message hreturned hpc :=
    (h.failed name message hreturned hpc).imp (·.step step)
      fun ⟨hname, hreaped⟩ => ⟨hname, hreaped.step step⟩

/-- A step that leaves the main thread inside a command. -/
theorem Progress.inside {s s' s'' : Service} {returned : List Returned} (h : Progress lib s s' returned)
    (hpath : s''.path = s'.path) (hpc : s''.pc ≠ .idle)
    (hearly : returned = [] → s''.pc.harmless = true → Kept lib s s'')
    (hstarting : returned = [] → ∀ config, s''.pc = .starting config →
      Kept lib s s'' ∨ ReapedOwn lib s s'') :
    Progress lib s s'' (returned ++ []) := by
  rw [List.append_nil]
  exact ⟨hpath.trans h.path, hearly, hstarting, fun _ _ _ hidle => absurd hidle hpc⟩

/-- A step with which a command returns. -/
theorem Progress.returns {s s' s'' : Service} {returned : List Returned} {name : String}
    {result : Except Failure Json} (h : Progress lib s s' returned) (hpath : s''.path = s'.path)
    (hfailed : returned = [] → ∀ message, result = .error (.error message) →
      Kept lib s s'' ∨ name = "start" ∧ ReapedOwn lib s s'') :
    Progress lib s s'' (returned ++ [⟨name, result⟩]) := by
  refine ⟨hpath.trans h.path, fun hnone => by simp at hnone, fun hnone => by simp at hnone, ?_⟩
  intro called message hreturned _
  obtain ⟨hnone, hlast⟩ := List.append_eq_singleton_iff.mp hreturned |>.resolve_right (by simp)
  obtain ⟨rfl, hresult⟩ := Returned.mk.inj (List.singleton_inj.mp hlast)
  exact hfailed hnone message hresult

/-- Before `Agent::stop` a command has left the relay to its threads. -/
theorem Progress.kept {s s' : Service} {returned : List Returned} (h : Progress lib s s' returned)
    (hnone : returned = []) (hpc : s'.pc.early = true) : Kept lib s s' := by
  refine h.early hnone ?_
  cases hplace : s'.pc with
  | idle | loading | applying => rfl
  | stopping | joining | starting | started | panicked =>
      rw [hplace] at hpc
      cases hpc

theorem Progress.turn {s s' s'' : Service} {returned events : List Returned} (h : Progress lib s s' returned)
    (hs' : Consistent s') (hturn : CommandTurn lib codec s' s'' events) :
    Progress lib s s'' (returned ++ events) := by
  have hfits := hs'.fits
  cases hturn with
  | wait hpc => exact h.inside rfl hpc h.early h.starting
  | answer name result hpc => exact h.returns rfl fun hnone _ _ => .inl ((h.kept hnone hpc).goto _)
  | panic name hpc => exact h.returns rfl fun _ _ herror => by cases herror
  | proceed hpc hnext =>
      have hkept (hnone : returned = []) : Kept lib s s' := h.kept hnone (by rw [hpc]; rfl)
      refine h.inside rfl ?_ (fun hnone _ => (hkept hnone).goto _) fun hnone _ _ =>
        .inl ((hkept hnone).goto _)
      rcases hnext with rfl | rfl | ⟨name, config, rfl⟩ <;> exact nofun
  | saved name config value now hpc hended => exact h.returns rfl fun _ _ herror => by cases herror
  | reap config now hpc hended =>
      exact h.inside rfl nofun (fun hnone _ => (h.kept hnone hpc).goto _) fun hnone _ _ =>
        .inl ((h.kept hnone hpc).goto _)
  | absent next hpc hrelay =>
      cases next with
      | none => exact h.returns rfl fun _ _ herror => by cases herror
      | some config =>
          have hkept (hnone : returned = []) : Kept lib s s' := h.early hnone (by rw [hpc]; rfl)
          exact h.inside rfl nofun (fun hnone _ => (hkept hnone).goto _) fun hnone _ _ =>
            .inl ((hkept hnone).goto _)
  | asked next relay now hpc hrelay =>
      refine h.inside rfl nofun (fun hnone hharmless => ?_) fun _ _ hstarting => by cases hstarting
      cases next with
      | none => cases hharmless
      | some config =>
          rw [hpc] at hfits
          obtain ⟨hunasked, hover⟩ := hfits relay hrelay
          have hkept : Kept lib s s' := h.early hnone (by rw [hpc]; rfl)
          refine ⟨hkept.config, hkept.past, hkept.last, ?_⟩
          rw [Launched.next_stop_of_over hunasked hover, ← hrelay]
          exact hkept.relay
  | joined next relay now hpc hrelay hended hafter =>
      subst hafter
      cases next with
      | none => exact h.returns rfl fun _ _ herror => by cases herror
      | some config =>
          rw [hpc] at hfits
          refine h.inside rfl nofun (fun _ hharmless => by cases hharmless) fun hnone _ _ => .inr ?_
          have hkept : Kept lib s s' := h.early hnone (by rw [hpc]; rfl)
          exact hkept.joined hrelay (hfits relay hrelay)
  | unstarted config message hpc =>
      refine h.returns rfl fun hnone _ _ => ?_
      rcases h.starting hnone config hpc with hkept | hreaped
      · exact .inl (hkept.goto _)
      · exact .inr ⟨rfl, hreaped.goto _⟩
  | started config boot hpc =>
      exact h.inside rfl nofun (fun _ hharmless => by cases hharmless) fun _ _ hstarting => by cases hstarting
  | reported value hpc => exact h.returns rfl fun _ _ herror => by cases herror

theorem Progress.next {s s' : Service} {returned : List Returned} (h : Progress lib s s' returned)
    (hs' : Consistent s') (action : ServiceAction) :
    Progress lib s (s'.next lib codec action) (returned ++ s'.emit lib codec action) := by
  cases action with
  | command i => exact h.turn hs' (turn_commandStep s' i)
  | relay step => exact (List.append_nil returned).symm ▸ h.relay step
  | past n step =>
      rw [hs'.next_past n step]
      exact (List.append_nil returned).symm ▸ h

/-! ### Every run -/

section

variable (lib : External) (codec : Codec) (config : Config) (path : String) (boot : Boot)

theorem consistent (actions : List ServiceAction) :
    Consistent ((service lib codec config path boot).run actions) :=
  (service lib codec config path boot).invariant (Consistent.start config path boot)
    (fun _ action h => h.next action) actions

theorem progress {s : Service} (hs : Consistent s) (hpc : s.pc = .idle) (actions : List ServiceAction) :
    let agent := service lib codec config path boot
    Progress lib s (agent.runFrom s actions) (agent.traceFrom s actions) := by
  intro agent
  have hboth := agent.induction_from (P := fun _ s' returned => Consistent s' ∧ Progress lib s s' returned)
    ⟨hs, Progress.start hpc⟩
    (fun _ s' returned action h => ⟨h.1.next action, h.2.next h.1 action⟩) actions
  exact hboth.2

/-- Every relay the agent ever had. -/
def Service.relays (s : Service) : List Launched := s.relay.toList ++ s.past

theorem agent_and_relay_agree (actions : List ServiceAction) :
    let agent := service lib codec config path boot
    let s := agent.run actions
    (∀ relay ∈ s.relays, relay.Alive → s.relay = some relay ∧ s.config = relay.config) ∧
      s.relays.countP (fun relay => relay.Alive) ≤ 1 ∧
      ∀ (more : List ServiceAction) (name message : String),
        let s' := agent.runFrom s more
        s.pc = .idle → s'.pc = .idle → agent.traceFrom s more = [⟨name, .error (.error message)⟩] →
          s'.config = s.config ∧ s'.path = s.path ∧
            (Kept lib s s' ∨ name = "start" ∧ ReapedOwn lib s s') := by
  intro agent s
  have hs : Consistent s := consistent lib codec config path boot actions
  have hone : (Household.mk s.relay s.past).all.countP (fun relay => relay.Alive) ≤ 1 :=
    Household.countP_le_one hs.past
  refine ⟨fun relay hrelay halive => ?_, hone, ?_⟩
  · rcases List.mem_append.mp hrelay with hown | hgone
    · have hown : s.relay = some relay := Option.mem_toList.mp hown
      exact ⟨hown, hs.settings relay hown halive⟩
    · exact absurd halive (hs.past relay hgone)
  · intro more name message s' hidle hidle' hreturned
    have hprogress : Progress lib s s' _ := progress lib codec config path boot hs hidle more
    have houtcome := hprogress.failed name message hreturned hidle'
    refine ⟨?_, hprogress.path, houtcome⟩
    rcases houtcome with hkept | ⟨-, relay, steps, -, hreaped⟩
    · exact hkept.config
    · exact hreaped.config

end

end SyslogDtlsAgent
