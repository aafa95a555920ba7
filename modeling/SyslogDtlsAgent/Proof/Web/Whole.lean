import SyslogDtlsAgent.Proof.Web.Service

/-!
# A command taken in one piece

`Agent.command` says what a command does when nothing comes between its steps; the threads of a relay it
stops are heard of through `Effects.joined` alone. Each such command is a run of the agent beside its
relays, with the same answer and the same agent at its end, and there is always a state `joined` for it.
-/

namespace SyslogDtlsAgent

open Library

variable {lib : External} {codec : Codec}

def Service.agent (s : Service) : Agent where
  config := s.config
  path := s.path
  relay := s.relay.map fun r => ⟨r.config, r.world.shared⟩
  last := s.last

def CommandInput.effects (i : CommandInput) (joined : State) : Effects where
  now := i.now
  joined
  connector := i.connector
  file := i.file
  saved := i.saved
  boot := i.boot

theorem Service.agent_status (s : Service) (i : CommandInput) (joined : State) :
    s.agent.status (i.effects joined) = s.status i.now := by
  unfold Agent.status Service.status Service.agent
  cases s.relay <;> rfl

theorem Launched.start_eq (config : Config) (i : CommandInput) (joined : State) :
    Agent.startRelay lib config (i.effects joined) =
      (Launched.start lib config i.boot).map fun r => ⟨r.config, r.world.shared⟩ := by
  unfold Agent.startRelay Launched.start CommandInput.effects
  cases config.validate lib with
  | error message => rfl
  | ok _ => cases i.boot <;> rfl

section

variable {config : Config} {path : String} {boot : Boot}

theorem runFrom_threads (lib : External) (codec : Codec) (config : Config) (path : String) (boot : Boot)
    (s : Service) (steps : List ThreadStep) :
    (service lib codec config path boot).runFrom s (steps.map .relay) =
        { s with relay := s.relay.map fun r => r.runs lib steps } ∧
      (service lib codec config path boot).traceFrom s (steps.map .relay) = [] := by
  induction steps generalizing s with
  | nil =>
      refine ⟨?_, rfl⟩
      obtain ⟨config, path, relay, last, pc, past⟩ := s
      cases relay <;> rfl
  | cons step steps ih =>
      obtain ⟨hrun, htrace⟩ := ih (s.next lib codec (.relay step))
      refine ⟨hrun.trans ?_, htrace⟩
      simp only [Service.next, Option.map_map]
      rfl

theorem Launched.sender_can_end (lib : External) (relay : Launched)
    (hstop : relay.world.shared.stopAt.isSome = true) :
    ∃ steps, (relay.runs lib steps).world.listener = relay.world.listener ∧
      (relay.runs lib steps).world.shared.stopAt = relay.world.shared.stopAt ∧
      (relay.runs lib steps).world.sender.pc.distance = 0 := by
  induction hdistance : relay.world.sender.pc.distance using Nat.strong_induction_on generalizing relay with
  | _ n ih =>
      by_cases hzero : n = 0
      · exact ⟨[], rfl, rfl, hdistance.trans hzero⟩
      obtain ⟨at_, hat⟩ := Option.isSome_iff_exists.mp hstop
      obtain ⟨i, hcloser⟩ :=
        senderStep_advances lib relay.config relay.world.shared relay.world.sender hat (hdistance ▸ hzero)
      have hsame : (relay.next lib (.sender i)).world.shared.stopAt = relay.world.shared.stopAt :=
        (senderStep_flags lib relay.config i relay.world.shared relay.world.sender).1
      obtain ⟨steps, hlistener, hstopped, hended⟩ :=
        ih _ (hdistance ▸ hcloser) (relay.next lib (.sender i)) (hsame ▸ hstop) rfl
      exact ⟨.sender i :: steps, hlistener, hstopped.trans hsame, hended⟩

theorem Launched.listener_can_end (lib : External) (relay : Launched)
    (hstop : relay.world.shared.stopAt.isSome = true) :
    ∃ steps, (relay.runs lib steps).world.listener = .exited ∧
      (relay.runs lib steps).world.sender = relay.world.sender := by
  obtain ⟨config, shared, listener, sender⟩ := relay
  let quiet : ThreadStep := .listener ⟨.again, 0, 0⟩
  have hcheck : (if shared.stopAt.isSome then ListenPc.exited else .receiving) = .exited := if_pos hstop
  cases listener with
  | exited => exact ⟨[], rfl, rfl⟩
  | check => exact ⟨[quiet], hcheck, rfl⟩
  | receiving => exact ⟨[quiet, quiet], hcheck, rfl⟩

/-- A relay that was asked to stop can end: the sender by failing calls, the listener at its next check. -/
theorem Launched.can_end (lib : External) (relay : Launched)
    (hstop : relay.world.shared.stopAt.isSome = true) :
    ∃ steps, (relay.runs lib steps).Ended := by
  obtain ⟨sending, -, hstopped, hdistance⟩ := relay.sender_can_end lib hstop
  obtain ⟨listening, hexited, hsender⟩ := (relay.runs lib sending).listener_can_end lib (hstopped ▸ hstop)
  refine ⟨sending ++ listening, ?_⟩
  have hruns : relay.runs lib (sending ++ listening) = (relay.runs lib sending).runs lib listening :=
    List.foldl_append
  rw [hruns]
  refine ⟨hexited, ?_⟩
  rw [hsender]
  cases hpc : (relay.runs lib sending).world.sender.pc with
  | done => exact .inl rfl
  | panicked => exact .inr rfl
  | _ =>
      rw [hpc] at hdistance
      cases hdistance

/-- From `s` on, the command `name` can return and leave `answer`. -/
def Performs (lib : External) (codec : Codec) (config : Config) (path : String) (boot : Boot) (s : Service)
    (name : String) (answer : Agent × Except Failure Json) : Prop :=
  ∃ actions, ((service lib codec config path boot).runFrom s actions).agent = answer.1 ∧
    (service lib codec config path boot).traceFrom s actions = [⟨name, answer.2⟩]

variable {s : Service} {name : String} {answer : Agent × Except Failure Json}

theorem Performs.returns (i : CommandInput) (after : Service) {result : Except Failure Json}
    (hstep : s.commandStep lib codec i = (after, [⟨name, result⟩]))
    (hanswer : answer = (after.agent, result)) :
    Performs lib codec config path boot s name answer := by
  subst hanswer
  refine ⟨[.command i], ?_, ?_⟩
  · exact congrArg (fun step => step.1.agent) hstep
  · exact congrArg (fun step => step.2 ++ []) hstep

/-- A step that returns and changes nothing. -/
theorem Performs.answers (i : CommandInput) {result : Except Failure Json}
    (hstep : s.commandStep lib codec i = s.returns name result) :
    Performs lib codec config path boot s name (s.agent, result) :=
  .returns i _ hstep rfl

theorem Performs.step (i : CommandInput) (after : Service)
    (hstep : s.commandStep lib codec i = (after, []))
    (h : Performs lib codec config path boot after name answer) :
    Performs lib codec config path boot s name answer := by
  obtain ⟨actions, hrun, htrace⟩ := h
  have hnext : (service lib codec config path boot).next s (.command i) = after := congrArg Prod.fst hstep
  have hemit : (service lib codec config path boot).emit s (.command i) = [] := congrArg Prod.snd hstep
  refine ⟨.command i :: actions, ?_, ?_⟩
  · rw [Machine.runFrom_cons, hnext, hrun]
  · rw [Machine.traceFrom_cons, hnext, hemit, htrace, List.nil_append]

theorem Performs.threads (steps : List ThreadStep)
    (h : Performs lib codec config path boot
      { s with relay := s.relay.map fun r => r.runs lib steps } name answer) :
    Performs lib codec config path boot s name answer := by
  obtain ⟨actions, hrun, htrace⟩ := h
  obtain ⟨hthreads, hquiet⟩ := runFrom_threads lib codec config path boot s steps
  refine ⟨steps.map .relay ++ actions, ?_, ?_⟩
  · rw [Machine.runFrom_append, hthreads, hrun]
  · rw [Machine.traceFrom_append, hthreads, hquiet, htrace, List.nil_append]

/-- The threads of the agent's relay, asked to stop, can take steps that end it in the state `joined`. -/
def Joins (lib : External) (s : Service) (i : CommandInput) (joined : State) : Prop :=
  ∀ relay ∈ s.relay, ∃ steps, ((relay.next lib (.stop i.now)).runs lib steps).Ended ∧
    ((relay.next lib (.stop i.now)).runs lib steps).world.shared = joined

/-- `Agent::stop` and what follows it. -/
theorem Performs.stop (i : CommandInput) (joined : State) {next : Option Config} (hpc : s.pc = .stopping next)
    (hjoins : Joins lib s i joined)
    (h : ∀ {s' after : Service}, s'.commandStep lib codec i = after.stopped codec next →
      after.agent = s.agent.stop (i.effects joined) → Performs lib codec config path boot s' name answer) :
    Performs lib codec config path boot s name answer := by
  obtain ⟨own, file, relay, last, pc, past⟩ := s
  obtain rfl : pc = .stopping next := hpc
  cases relay with
  | none => exact h rfl rfl
  | some relay =>
      obtain ⟨steps, hended, hjoined⟩ := hjoins relay rfl
      refine .step i _ rfl (.threads steps ?_)
      have hrelay : ((relay.next lib (.stop i.now)).runs lib steps).next lib .join =
          { (relay.next lib (.stop i.now)).runs lib steps with
            world :=
              { ((relay.next lib (.stop i.now)).runs lib steps).world with shared := stopFinish joined } } := by
        rw [← hjoined]
        exact congrArg _ (if_pos hended)
      refine h (if_pos hended) ?_
      simp only [Service.agent, hrelay]
      rfl

/-- `start` from where it has stopped its old relay. -/
theorem Performs.start (i : CommandInput) (joined : State) {settings : Config} (hpc : s.pc = .starting settings)
    {agent : Agent} (hagent : s.agent = agent) :
    Performs lib codec config path boot s "start"
      (match Agent.startRelay lib settings (i.effects joined) with
        | .error message => (agent, .error (.error message))
        | .ok relay =>
            let agent := { agent with relay := some relay, config := settings }
            (agent, .ok (codec.statusToJson (agent.status (i.effects joined))))) := by
  subst hagent
  rw [Launched.start_eq]
  cases hstart : Launched.start lib settings i.boot with
  | error message =>
      refine .answers i ?_
      simp only [Service.commandStep, hpc, hstart]
      rfl
  | ok relay =>
      refine .step i { s with
        relay := some relay
        config := settings
        past := s.relay.toList ++ s.past
        pc := .started } ?_ (.returns i _ rfl ?_)
      · simp only [Service.commandStep, hpc, hstart]
      · rfl

theorem Performs.apply (i : CommandInput) (joined : State) {settings : Config}
    (hpc : s.pc = .applying i.name settings) (hname : i.name = "start" ∨ i.name = "save_config")
    (hjoins : Joins lib s i joined) :
    Performs lib codec config path boot s i.name
      (if (s.agent.status (i.effects joined)).running then
        (s.agent, .error (.error "Stop the relay before applying settings"))
      else if i.name = "save_config" then
        match i.saved with
        | .error message => (s.agent, .error (.error message))
        | .ok () => ({ s.agent with config := settings }, .ok (.bool true))
      else
        match i.connector with
        | .error message => (s.agent, .error (.error message))
        | .ok () =>
            let agent := s.agent.stop (i.effects joined)
            match Agent.startRelay lib settings (i.effects joined) with
            | .error message => (agent, .error (.error message))
            | .ok relay =>
                let agent := { agent with relay := some relay, config := settings }
                (agent, .ok (codec.statusToJson (agent.status (i.effects joined))))) := by
  rw [Service.agent_status]
  by_cases hrunning : (s.status i.now).running = true
  · rw [if_pos hrunning]
    refine .answers i ?_
    simp only [Service.commandStep, hpc, hrunning, if_true]
    rfl
  rw [if_neg hrunning]
  by_cases hsave : i.name = "save_config"
  · rw [if_pos hsave]
    cases hsaved : i.saved with
    | error message =>
        refine .answers i ?_
        simp only [Service.commandStep, hpc, hrunning, hsave, hsaved, if_true, Bool.false_eq_true, if_false]
        rfl
    | ok _ =>
        refine .returns i { s with config := settings, pc := .idle } ?_ rfl
        simp only [Service.commandStep, hpc, hrunning, hsave, hsaved, if_true, Bool.false_eq_true, if_false]
        rfl
  have hstart : i.name = "start" := hname.resolve_right hsave
  rw [if_neg hsave]
  cases hconnector : i.connector with
  | error message =>
      refine .answers i ?_
      simp only [Service.commandStep, hpc, hrunning, hsave, hconnector, Bool.false_eq_true, if_false]
      rfl
  | ok _ =>
      refine .step i { s with pc := .stopping (some settings) } ?_ ?_
      · simp only [Service.commandStep, hpc, hrunning, hsave, hconnector, Bool.false_eq_true, if_false]
        rfl
      · refine .stop i joined rfl hjoins fun {s' after} hstep hagent => .step i _ hstep ?_
        rw [hstart]
        exact .start i joined rfl hagent

theorem Performs.configure (i : CommandInput) (joined : State)
    (hstep : s.commandStep lib codec i = s.configure lib codec i)
    (hname : i.name = "start" ∨ i.name = "validate" ∨ i.name = "save_config")
    (hjoins : Joins lib s i joined) :
    Performs lib codec config path boot s i.name
      (s.agent.configure lib codec i.name i.args (i.effects joined)) := by
  unfold Service.configure at hstep
  unfold Agent.configure
  cases hsettings : codec.configOfJson (i.args.index "config") with
  | none =>
      rw [hsettings] at hstep
      exact .returns i _ hstep rfl
  | some settings =>
      rw [hsettings] at hstep
      simp only at hstep ⊢
      rw [show s.agent.path = s.path from rfl]
      cases hbase : parent s.path with
      | none =>
          rw [hbase] at hstep
          exact .returns i _ hstep rfl
      | some base =>
          rw [hbase] at hstep
          simp only at hstep ⊢
          cases hvalid : (settings.resolvePaths base).validate lib with
          | error message =>
              rw [hvalid] at hstep
              exact .returns i _ hstep rfl
          | ok _ =>
              rw [hvalid] at hstep
              simp only at hstep ⊢
              by_cases hvalidate : i.name = "validate"
              · rw [if_pos hvalidate] at hstep ⊢
                cases hconnector : i.connector with
                | error message =>
                    rw [hconnector] at hstep
                    simp only [CommandInput.effects, hconnector]
                    exact .returns i _ hstep rfl
                | ok _ =>
                    rw [hconnector] at hstep
                    simp only [CommandInput.effects, hconnector]
                    exact .returns i _ hstep rfl
              · rw [if_neg hvalidate] at hstep ⊢
                have hname : i.name = "start" ∨ i.name = "save_config" :=
                  hname.imp_right fun h => h.resolve_left hvalidate
                exact .step i _ hstep (.apply i joined rfl hname hjoins)

theorem Performs.load (i : CommandInput) (hpc : s.pc = .loading) :
    Performs lib codec config path boot s "load_config"
      (if (s.status i.now).running then
        (s.agent, .error (.error "Stop the relay before loading settings"))
      else
        match Config.load lib codec.configOfToml s.path i.file with
        | .ok settings => (s.agent, .ok (codec.configToJson settings))
        | .error message => (s.agent, .error (.error message))) := by
  by_cases hrunning : (s.status i.now).running = true
  · rw [if_pos hrunning]
    refine .answers i ?_
    simp only [Service.commandStep, hpc, hrunning, if_true]
    rfl
  rw [if_neg hrunning]
  cases hload : Config.load lib codec.configOfToml s.path i.file with
  | error message =>
      refine .answers i ?_
      simp only [Service.commandStep, hpc, hrunning, hload, Bool.false_eq_true, if_false]
      rfl
  | ok settings =>
      refine .answers i ?_
      simp only [Service.commandStep, hpc, hrunning, hload, Bool.false_eq_true, if_false]

/-- Every command taken in one piece is a run of the agent beside its relays. -/
theorem command_performs (i : CommandInput) (joined : State) (hidle : s.pc = .idle)
    (hjoins : Joins lib s i joined) :
    Performs lib codec config path boot s i.name
      (s.agent.command lib codec i.name i.args (i.effects joined)) := by
  unfold Agent.command
  split
  · rename_i hname
    rw [Service.agent_status]
    refine .answers i ?_
    simp only [Service.commandStep, hidle, hname]
  · rename_i hname
    refine .answers i ?_
    simp only [Service.commandStep, hidle, hname]
    rfl
  · rename_i hname
    refine .step i { s with pc := .stopping none } ?_ (.stop i joined rfl hjoins ?_)
    · simp only [Service.commandStep, hidle, hname]
      rfl
    · intro s' after hstep hagent
      rw [hname, show s.agent.stop (i.effects joined) = after.agent from hagent.symm]
      exact .returns i _ hstep rfl
  · rename_i hname
    cases hip : parseIpAddr ((i.args.index "ip").asStr.getD "") with
    | none =>
        refine .answers i ?_
        simp only [Service.commandStep, hidle, hname, hip]
        rfl
    | some ip =>
        refine .answers i ?_
        simp only [Service.commandStep, hidle, hname, hip]
  · rename_i hname
    rw [Service.agent_status, hname]
    refine .step i { s with pc := .loading } ?_ (.load i rfl)
    simp only [Service.commandStep, hidle, hname]
    rfl
  · rename_i hname
    refine .configure i joined ?_ (.inl hname) hjoins
    simp only [Service.commandStep, hidle, hname]
  · rename_i hname
    refine .configure i joined ?_ (.inr (.inl hname)) hjoins
    simp only [Service.commandStep, hidle, hname]
  · rename_i hname
    refine .configure i joined ?_ (.inr (.inr hname)) hjoins
    simp only [Service.commandStep, hidle, hname]
  · refine .answers i ?_
    simp only [Service.commandStep, hidle]
    rfl

/-- Whatever state the agent's relay is in, `Agent::stop` can join it. -/
theorem joins_exist (lib : External) (s : Service) (i : CommandInput) (boot : Boot) :
    ∃ joined, Joins lib s i joined := by
  cases hrelay : s.relay with
  | none => exact ⟨State.start s.config boot, no_relay hrelay⟩
  | some relay =>
      have hstop : (relay.next lib (.stop i.now)).world.shared.stopAt.isSome = true := by
        simp only [Launched.next, World.next, stopRequest]
        cases hat : relay.world.shared.stopAt with
        | none => simp only [Option.isNone_none, if_true, Option.isSome_some]
        | some at_ => simp only [Option.isNone_some, Bool.false_eq_true, if_false, hat, Option.isSome_some]
      obtain ⟨steps, hended⟩ := (relay.next lib (.stop i.now)).can_end lib hstop
      refine ⟨((relay.next lib (.stop i.now)).runs lib steps).world.shared, fun r hr => ?_⟩
      obtain rfl : relay = r := Option.some.inj (hrelay.symm.trans hr)
      exact ⟨steps, hended, rfl⟩

/-- No command is stuck: between two commands, the agent can perform any other and return. -/
theorem command_can_return (i : CommandInput) (hidle : s.pc = .idle) :
    ∃ joined, Performs lib codec config path boot s i.name
      (s.agent.command lib codec i.name i.args (i.effects joined)) := by
  obtain ⟨joined, hjoins⟩ := joins_exist lib s i boot
  exact ⟨joined, command_performs i joined hidle hjoins⟩

end

end SyslogDtlsAgent
