import SyslogDtlsAgent.Proof.Process.Steps
import SyslogDtlsAgent.Proof.Web.Supervision

/-!
# The process and its relays

`Orderly` relates the place of the main thread in the loop to the place of the agent in its commands. It
carries the facts about the agent over to the process: the relays are supervised in every run, and once
the main thread has left `run`, by whatever way, no relay of the process is left.
-/

namespace SyslogDtlsAgent

open Library

variable {lib : External} {codec : Codec}

/-! ### Commands and the loop -/

/-- Inside a command the agent does not panic; a command that returns leaves it idle, or has panicked. -/
theorem CommandTurn.after {s s' : Service} {events : List Returned} (h : CommandTurn lib codec s s' events) :
    (events = [] → s.pc ≠ .panicked → s'.pc ≠ .panicked) ∧
      ∀ returned ∈ events.head?, s'.pc = .idle ∨ s'.pc = .panicked ∧ returned.result = .error .panic := by
  have hquiet {returned : Returned} {P : Prop} : returned ∈ ([] : List Returned).head? → P := fun h => by cases h
  have hreturns {e : Returned} {P : Prop} : [e] = [] → P := fun h => by cases h
  cases h with
  | wait => exact ⟨fun _ h => h, fun _ => hquiet⟩
  | answer | saved | unstarted | reported => exact ⟨hreturns, fun _ _ => .inl rfl⟩
  | panic name hpc =>
      refine ⟨hreturns, fun returned hreturned => .inr ⟨rfl, ?_⟩⟩
      rw [← Option.mem_some_iff.mp hreturned]
  | proceed hpc hnext =>
      refine ⟨fun _ _ hpanicked => ?_, fun _ => hquiet⟩
      rcases hnext with rfl | rfl | ⟨name, config, rfl⟩ <;> cases hpanicked
  | reap | asked | started => exact ⟨(fun _ _ h => by cases h), fun _ => hquiet⟩
  | absent next | joined next =>
      cases next with
      | none => exact ⟨hreturns, fun _ _ => .inl rfl⟩
      | some config => exact ⟨(fun _ _ h => by cases h), fun _ => hquiet⟩

/-- The settings are the same, and so are the relays, apart from the steps they have taken. -/
structure Untouched (s s' : Service) : Prop where
  config : s'.config = s.config
  path : s'.path = s.path
  relays : s'.relays.map Launched.config = s.relays.map Launched.config

theorem Untouched.refl (s : Service) : Untouched s s := ⟨rfl, rfl, rfl⟩

theorem Untouched.trans {a b c : Service} (h : Untouched a b) (h' : Untouched b c) : Untouched a c :=
  ⟨h'.config.trans h.config, h'.path.trans h.path, h'.relays.trans h.relays⟩

theorem Untouched.thread (lib : External) (codec : Codec) (s : Service) (step : ThreadStep) : Untouched s (s.next lib codec (.relay step)) := by
  refine ⟨rfl, rfl, ?_⟩
  obtain ⟨config, path, relay, last, pc, past⟩ := s
  cases relay with
  | none => rfl
  | some relay => rfl

/-- In the last `stop`. -/
def CommandPc.Last (pc : CommandPc) : Prop := pc = .stopping none ∨ pc = .joining none

/-- The last `stop` goes on, or it has returned and the relay is gone. -/
theorem CommandTurn.last {s s' : Service} {events : List Returned} (h : CommandTurn lib codec s s' events)
    (hpc : s.pc.Last) : Untouched s s' ∧ (events = [] → s'.pc.Last) ∧
      (events ≠ [] → s'.relay = none ∧ s'.pc = .idle) := by
  have hplace {pc : CommandPc} (hother : s.pc = pc) : pc.Last := hother ▸ hpc
  have hlate (hearly : s.pc.early = true) : False := by
    rcases hpc with hpc | hpc <;>
    · rw [hpc] at hearly
      cases hearly
  have hreturns {e : Returned} {P : Prop} : [e] = [] → P := fun h => by cases h
  cases h with
  | wait => exact ⟨.refl s, fun _ => hpc, fun h => absurd rfl h⟩
  | answer name result hearly => exact (hlate hearly).elim
  | panic name hearly => exact (hlate hearly).elim
  | saved name config value now hearly => exact (hlate hearly).elim
  | reap config now hearly => exact (hlate hearly).elim
  | proceed hidle => exact (hlate (by rw [hidle]; rfl)).elim
  | absent next hstopping hrelay =>
      rcases hplace hstopping with hnext | hnext <;> cases hnext
      exact ⟨⟨rfl, rfl, rfl⟩, hreturns, fun _ => ⟨hrelay, rfl⟩⟩
  | asked next relay now hstopping hrelay =>
      rcases hplace hstopping with hnext | hnext <;> cases hnext
      refine ⟨⟨rfl, rfl, ?_⟩, fun _ => .inr rfl, fun h => absurd rfl h⟩
      simp only [Service.relays, hrelay]
      rfl
  | joined next relay now hjoining hrelay hended hafter =>
      rcases hplace hjoining with hnext | hnext <;> cases hnext
      subst hafter
      refine ⟨⟨rfl, rfl, ?_⟩, hreturns, fun _ => ⟨rfl, rfl⟩⟩
      simp only [Service.relays, hrelay]
      rfl
  | unstarted config message hstarting => rcases hplace hstarting with h | h <;> cases h
  | started config boot hstarting => rcases hplace hstarting with h | h <;> cases h
  | reported value hstarted => rcases hplace hstarted with h | h <;> cases h

theorem Consistent.goto_stop {s : Service} (h : Consistent s) (hpc : s.pc = .idle ∨ s.pc = .panicked) :
    Consistent (s.goto (.stopping none)).1 := by
  refine ⟨h.past, h.settings, ?_, h.last⟩
  have hfits := h.fits
  rcases hpc with hpc | hpc <;>
  · rw [hpc] at hfits
    exact hfits

/-- Answering leaves the relays alone. -/
theorem Process.answers_household (p : Process) (outcome : Outcome) :
    (p.answers outcome).service.household = p.service.household := by
  cases outcome with
  | forward | reply | panic => rfl

/-! ### The invariant -/

/-- What the place of the main thread says about the agent. -/
def MainPc.Fits (s : Service) : MainPc → Prop
  | .commanding _ _ _ => s.pc ≠ .panicked
  | .ending _ => s.pc.Last
  | .exited _ => s.relay = none ∧ s.pc = .idle
  | _ => s.pc = .idle

theorem MainPc.Fits.idle {s : Service} {pc : MainPc} (h : pc.Fits s) (hpc : pc.between = true) :
    s.pc = .idle := by
  cases pc with
  | top | reporting | reported | waiting => exact h
  | commanding | ending | exited => cases hpc

theorem MainPc.fits_of_idle {s : Service} {pc : MainPc} (h : s.pc = .idle) (hpc : pc.between = true) :
    pc.Fits s := by
  cases pc with
  | top | reporting | reported | waiting => exact h
  | commanding | ending | exited => cases hpc

structure Orderly (p : Process) : Prop where
  consistent : Consistent p.service
  recorded : p.service.Recorded
  fits : p.pc.Fits p.service

namespace Orderly

variable {p : Process}

theorem ends (hs : Consistent p.service) (hr : p.service.Recorded)
    (hpc : p.service.pc = .idle ∨ p.service.pc = .panicked) (result : Except Failure Unit) :
    Orderly (p.ends result) :=
  ⟨hs.goto_stop hpc, hr, .inl rfl⟩

/-- Answering goes on with the loop, unless it panics. -/
theorem answers (hs : Consistent p.service) (hr : p.service.Recorded) {outcome : Outcome}
    (hpc : p.service.pc = .idle ∨ p.service.pc = .panicked ∧ outcome = .panic) : Orderly (p.answers outcome) := by
  cases outcome with
  | panic => exact .ends hs hr (hpc.imp_right And.left) _
  | reply response =>
      have hidle : p.service.pc = .idle := hpc.resolve_right fun h => by cases h.2
      exact ⟨hs, hr, hidle⟩
  | forward =>
      have hidle : p.service.pc = .idle := hpc.resolve_right fun h => by cases h.2
      exact ⟨hs, hr, hidle⟩

theorem turn {p' : Process} {events : List ProcessEvent} (h : Orderly p) (hturn : MainTurn lib codec p p' events) :
    Orderly p' := by
  have hfits := h.fits
  cases hturn with
  | loop pc last lines hpc hnext hlines =>
      exact ⟨h.consistent, h.recorded, MainPc.fits_of_idle (hfits.idle hpc) hnext⟩
  | leave result hpc => exact .ends h.consistent h.recorded (.inl (hfits.idle hpc)) result
  | took x auth outcome hpc hhttp htaken =>
      rw [hpc] at hfits
      exact answers (p := { p with auth }) h.consistent h.recorded (.inl hfits)
  | called x auth name args hpc hhttp htaken =>
      rw [hpc] at hfits
      refine ⟨h.consistent, h.recorded, ?_⟩
      change p.service.pc ≠ .panicked
      rw [show p.service.pc = .idle from hfits]
      exact fun hpanicked => by cases hpanicked
  | inside i service hpc hstep =>
      have hturn := turn_of_step hstep
      refine ⟨h.consistent.turn hturn, h.recorded.turn h.consistent hturn, ?_⟩
      rw [hpc] at hfits ⊢
      exact hturn.after.1 rfl hfits
  | returned i service returned more hpc hstep =>
      have hturn := turn_of_step hstep
      refine answers (p := { p with service }) (h.consistent.turn hturn) (h.recorded.turn h.consistent hturn) ?_
      refine (hturn.after.2 returned rfl).imp_right fun ⟨hpanicked, hresult⟩ => ⟨hpanicked, ?_⟩
      rw [hresult]
      rfl
  | stops i service hpc hstep =>
      have hturn := turn_of_step hstep
      refine ⟨h.consistent.turn hturn, h.recorded.turn h.consistent hturn, ?_⟩
      rw [hpc] at hfits ⊢
      exact (hturn.last hfits).2.1 rfl
  | exits i service returned more result hpc hstep =>
      have hturn := turn_of_step hstep
      refine ⟨h.consistent.turn hturn, h.recorded.turn h.consistent hturn, ?_⟩
      rw [hpc] at hfits
      exact (hturn.last hfits).2.2 (List.cons_ne_nil _ _)
  | exited => exact h

theorem relay (h : Orderly p) (step : ThreadStep) :
    Orderly (p.next lib codec (.relay step)) := by
  have hconsistent : Consistent (p.service.next lib codec (.relay step)) := h.consistent.relay step
  refine ⟨hconsistent, h.recorded, ?_⟩
  have hfits := h.fits
  cases hpc : p.pc with
  | top | reporting | reported | waiting | commanding | ending =>
      rw [hpc] at hfits
      simp only [Process.next, hpc]
      exact hfits
  | exited result =>
      rw [hpc] at hfits
      simp only [Process.next, hpc]
      refine ⟨?_, hfits.2⟩
      simp only [Service.next, hfits.1, Option.map_none]

theorem next (h : Orderly p) (action : ProcessAction) : Orderly (p.next lib codec action) := by
  cases action with
  | main i => exact h.turn (turn_mainStep p i)
  | relay step => exact h.relay step
  | past n step =>
      simp only [Process.next, h.consistent.next_past]
      exact h
  | signal => exact ⟨h.consistent, h.recorded, h.fits⟩

/-- A step of the process is a few steps of the supervisor of its relays. -/
theorem managed (h : Orderly p) (action : ProcessAction) :
    Launched.Managed lib p.service.household (p.next lib codec action).service.household := by
  have hcommand (i : CommandInput) {service : Service} {events : List Returned}
      (hstep : p.service.commandStep lib codec i = (service, events)) :
      Launched.Managed lib p.service.household service.household := by
    have hmanaged := @Service.commandStep_managed lib codec p.service h.consistent i
    rw [hstep] at hmanaged
    exact hmanaged
  cases action with
  | main i =>
      have hturn : MainTurn lib codec p _ _ := turn_mainStep p i
      simp only [Process.next]
      generalize (p.mainStep lib codec i).1 = after at hturn
      generalize (p.mainStep lib codec i).2 = events at hturn
      cases hturn with
      | loop | leave | called | exited => exact .refl
      | took x auth outcome =>
          rw [Process.answers_household]
      | inside i service hpc hstep => exact hcommand i hstep
      | returned i service returned more hpc hstep =>
          rw [Process.answers_household]
          exact hcommand i hstep
      | stops i service hpc hstep => exact hcommand i hstep
      | exits i service returned more result hpc hstep => exact hcommand i hstep
  | relay step => exact @Service.next_managed lib codec p.service h.consistent (.relay step)
  | past n step => exact @Service.next_managed lib codec p.service h.consistent (.past n step)
  | signal => exact .refl

end Orderly

/-! ### From the start of the process -/

/-- What `run` has established when it enters its loop. -/
structure Booted (lib : External) (codec : Codec) (args : RunArgs) (setup : Setup) (p : Process)
    (config : Config) : Prop where
  loaded : Config.load lib codec.configOfToml p.service.path (setup.file p.service.path) = .ok config
  service : ∃ relay, Launched.Born lib relay ∧ relay.config = config ∧
    p.service = ⟨config, p.service.path, some relay, Status.default, .idle, []⟩
  auth : bootAuth lib args config setup = .ok (some p.auth)
  http : bootHttp args config setup = .ok p.http
  pc : p.pc = .top

theorem Process.boot_spec {args : RunArgs} {setup : Setup} {p : Process}
    (h : Process.boot lib codec args setup = .ok (some p)) : ∃ config, Booted lib codec args setup p config := by
  simp only [Process.boot, bind_eq_ok] at h
  obtain ⟨path, -, config, hloaded, auth, hauth, h⟩ := h
  cases auth with
  | none => cases h
  | some auth =>
      simp only [bind_eq_ok] at h
      obtain ⟨http, hhttp, -, -, -, -, relay, hrelay, h⟩ := h
      cases h
      obtain ⟨boot, rfl⟩ := Launched.start_eq_ok hrelay
      exact ⟨config, hloaded, ⟨_, Launched.start_born hrelay, rfl, rfl⟩, hauth, hhttp, rfl⟩

theorem Booted.orderly {args : RunArgs} {setup : Setup} {p : Process} {config : Config}
    (h : Booted lib codec args setup p config) : Orderly p := by
  obtain ⟨relay, ⟨_, boot, -, rfl⟩, hconfig, hservice⟩ := h.service
  subst hconfig
  refine ⟨?_, fun r hr => ?_, ?_⟩
  · rw [hservice]
    exact Consistent.start _ _ boot
  · rw [hservice] at hr
    cases hr
  · rw [h.pc, hservice]
    rfl

theorem Booted.genuine {args : RunArgs} {setup : Setup} {p : Process} {config : Config}
    (h : Booted lib codec args setup p config) : ∀ r ∈ p.service.household.all, r.Genuine lib := by
  obtain ⟨relay, hborn, -, hservice⟩ := h.service
  intro r hr
  rw [hservice] at hr
  rw [List.mem_singleton.mp hr]
  exact hborn.genuine

theorem orderly {p q : Process} (h : Orderly q) (actions : List ProcessAction) :
    Orderly ((process lib codec p).runFrom q actions) :=
  (process lib codec p).invariant_from (fun _ action h => h.next action) h actions

/-- A run of the process is a run of a supervisor. -/
theorem managed {p q : Process} (h : Orderly q) (actions : List ProcessAction) :
    Launched.Managed lib q.service.household ((process lib codec p).runFrom q actions).service.household := by
  have hboth := (process lib codec p).invariant_from
    (P := fun p' => Orderly p' ∧ Launched.Managed lib q.service.household p'.service.household)
    (fun _ action h => ⟨h.1.next action, h.2.trans (h.1.managed action)⟩) ⟨h, .refl⟩ actions
  exact hboth.2

/-! ### The end of a run -/

/-- After a regular exit nothing follows the last line, which is the status the agent ended with. -/
def Closing (p : Process) (events : List ProcessEvent) : Prop :=
  p.pc = .exited (.ok ()) → ∃ before, events = before ++ [.reported p.service.last]

theorem Closing.next {p : Process} {events : List ProcessEvent} (h : Closing p events) (action : ProcessAction) :
    Closing (p.next lib codec action) (events ++ p.emit lib codec action) := by
  cases action with
  | main i =>
      have hturn : MainTurn lib codec p _ _ := turn_mainStep p i
      simp only [Process.next, Process.emit]
      generalize (p.mainStep lib codec i).1 = after at hturn
      generalize (p.mainStep lib codec i).2 = more at hturn
      intro hexited
      cases hturn with
      | loop pc last lines hpc hnext =>
          obtain rfl : pc = .exited (.ok ()) := hexited
          cases hnext
      | leave | called => cases hexited
      | took x auth outcome => cases outcome <;> cases hexited
      | inside i service hpc => cases hpc.symm.trans hexited
      | returned i service returned more =>
          generalize answerOf returned.result = outcome at hexited
          cases outcome <;> cases hexited
      | stops i service hpc => cases hpc.symm.trans hexited
      | exits i service returned more result =>
          cases hexited
          exact ⟨events, rfl⟩
      | exited =>
          rw [List.append_nil]
          exact h hexited
  | relay step =>
      rw [show p.emit lib codec (.relay step) = [] from rfl, List.append_nil]
      exact h
  | past n step =>
      rw [show p.emit lib codec (.past n step) = [] from rfl, List.append_nil]
      exact h
  | signal =>
      rw [show p.emit lib codec .signal = [] from rfl, List.append_nil]
      exact h

theorem closing {p : Process} (hpc : p.pc = .top) (actions : List ProcessAction) :
    Closing ((process lib codec p).run actions) ((process lib codec p).trace actions) :=
  (process lib codec p).induction (P := fun p' events => Closing p' events)
    (fun hexited => by cases hpc.symm.trans hexited) (fun _ _ action h => h.next action) actions

theorem no_relay_outlives_the_process (lib : External) (codec : Codec) (args : RunArgs) (setup : Setup)
    {p : Process} (hboot : Process.boot lib codec args setup = .ok (some p)) (actions : List ProcessAction) :
    let run := (process lib codec p).run actions
    let relays := run.service.relays
    (∀ relay ∈ relays, relay.Genuine lib) ∧ relays.countP (fun relay => relay.Alive) ≤ 1 ∧
      (∀ more, run.service.past <:+ ((process lib codec p).runFrom run more).service.past) ∧
      ∀ result, run.pc = .exited result →
        (∀ relay ∈ relays, ¬ relay.Alive) ∧
        (result = .ok () → ∃ relay now before, relays.head? = some relay ∧
          (process lib codec p).trace actions = before ++ [.reported (snapshot relay.world.shared now)]) := by
  intro run relays
  obtain ⟨config, hbooted⟩ := Process.boot_spec hboot
  have hstart := hbooted.orderly
  have hrun : Orderly run := orderly hstart actions
  have hmanaged : Launched.Managed lib p.service.household run.service.household := managed hstart actions
  have hpast : ∀ relay ∈ p.service.household.past, relay.Over := hstart.consistent.past
  refine ⟨?_, ?_, fun more => ?_, fun result hexited => ?_⟩
  · exact hmanaged.all (fun _ => Launched.Born.genuine) (fun _ _ h hstep => h.step hstep) hbooted.genuine
  · change run.service.household.all.countP (fun relay => relay.Alive) ≤ 1
    simpa only [Launched.Over, not_not] using hmanaged.one_left hpast
  · exact ((managed hrun more).past hrun.consistent.past).1
  · have hfits := hrun.fits
    rw [hexited] at hfits
    have hrelays : relays = run.service.past := by
      change run.service.relay.toList ++ run.service.past = _
      rw [hfits.1, Option.toList_none, List.nil_append]
    refine ⟨?_, fun hresult => ?_⟩
    · rw [hrelays]
      exact hrun.consistent.past
    · subst hresult
      obtain ⟨first, -, -, hservice⟩ := hbooted.service
      have hlength : 1 ≤ relays.length := by
        have hle := hmanaged.length_le
        rw [hservice] at hle
        exact hle
      rw [hrelays] at hlength ⊢
      have hsome := List.isSome_head?.mpr (List.ne_nil_of_length_pos hlength)
      obtain ⟨relay, hhead⟩ := Option.isSome_iff_exists.mp hsome
      obtain ⟨now, hlast⟩ := hrun.recorded relay hhead
      obtain ⟨before, htrace⟩ := closing hbooted.pc actions hexited
      refine ⟨relay, now, before, hhead, ?_⟩
      rw [← hlast]
      exact htrace

namespace Headless

def parsers : External := ⟨fun _ => false, some, fun _ => none, fun _ => []⟩

def serializers : Codec :=
  ⟨fun _ => none, fun _ => none, fun _ => .null, fun _ => .null, fun _ => some Config.default⟩

def args : RunArgs := ⟨some "/etc/agent.toml", 5, none, true⟩

def setup : Setup := ⟨.ok, .error "", fun _ => .ok "", true, .ok (), .ok (), .ok (),
  .ok ⟨⟨.v4 0x7f000001#32, 1514⟩, "", 0, 0, 0, 0⟩, 0⟩

end Headless

/-- A process without its interface. -/
theorem no_relay_outlives_a_headless_process :
    ∃ p, Process.boot Headless.parsers Headless.serializers Headless.args Headless.setup = .ok (some p) ∧
      ∀ actions result,
        ((process Headless.parsers Headless.serializers p).run actions).pc = .exited result →
          ∀ relay ∈ ((process Headless.parsers Headless.serializers p).run actions).service.relays,
            ¬ relay.Alive := by
  obtain ⟨p, hp⟩ : ∃ p, Process.boot Headless.parsers Headless.serializers Headless.args Headless.setup =
      .ok (some p) := ⟨_, rfl⟩
  refine ⟨p, hp, fun actions result hexited => ?_⟩
  exact ((no_relay_outlives_the_process _ _ _ _ hp actions).2.2.2 result hexited).1

end SyslogDtlsAgent
