import SyslogDtlsAgent.Cli.Web

/-!
# The agent beside the threads of its relays

`Agent::command` as the main thread runs it while the threads of a relay go on. `Agent.command` takes
a command in one piece; here it stops at every critical section of `Relay::status`, `Relay::stop` and
`Relay::start` that it enters, and an interleaving is a list of actions of the main thread and of the
threads. The relays the agent has let go of stay in `past`, so that their threads can be spoken of.
-/

namespace SyslogDtlsAgent

open Library

/-- A step of one of the two threads of a relay. -/
inductive ThreadStep where
  | listener (i : ListenerInput)
  | sender (i : SenderInput)

def ThreadStep.action : ThreadStep → Action
  | .listener i => .listener i
  | .sender i => .sender i

/-- A relay that was started: its configuration, and where its threads are. -/
structure Launched where
  config : Config
  world : World

namespace Launched

/-- `Relay::start`. When the sender cannot be spawned the listener is joined before `boot` fails. -/
def start (lib : External) (config : Config) (boot : Except String Boot) : Except String Launched := do
  config.validate lib
  let boot ← boot
  return ⟨config, World.start config boot⟩

def next (lib : External) (relay : Launched) (action : Action) : Launched :=
  { relay with world := World.next lib relay.config relay.world action }

/-- Both threads can be joined. -/
def Ended (relay : Launched) : Prop :=
  relay.world.listener = .exited ∧ (relay.world.sender.pc = .done ∨ relay.world.sender.pc = .panicked)

instance (relay : Launched) : Decidable relay.Ended := inferInstanceAs (Decidable (_ ∧ _))

end Launched

/-- Where the main thread is in `Agent::command`. -/
inductive CommandPc where
  /-- Between two commands. -/
  | idle
  /-- `load_config`, before it reads the status. -/
  | loading
  /-- `start` or `save_config` with settings that passed every check, before it reads the status. -/
  | applying (name : String) (config : Config)
  /-- `Agent::stop`; `next` is what a `start` will go on with. -/
  | stopping (next : Option Config)
  /-- `Relay::stop` between its two critical sections. -/
  | joining (next : Option Config)
  /-- `start`, before `Relay::start`. -/
  | starting (config : Config)
  /-- `start`, before it reads the status of the new relay. -/
  | started
  | panicked

/-- The agent and every relay it ever had. `Agent::stop` takes its relay out of the agent before it
stops it; here that relay stays where it is until its threads are joined. -/
structure Service where
  config : Config
  path : String
  relay : Option Launched
  last : Status
  pc : CommandPc
  past : List Launched

/-- What the main thread's next step gets from outside; a step looks only at what its place calls for. -/
structure CommandInput where
  name : String
  args : Json
  now : Instant
  connector : Except String Unit
  file : Except String String
  saved : Except String Unit
  boot : Except String Boot

/-- A command that has returned. -/
structure Returned where
  name : String
  result : Except Failure Json

namespace Service

def status (s : Service) (now : Instant) : Status :=
  match s.relay with
  | some relay => snapshot relay.world.shared now
  | none => s.last

def returns (s : Service) (name : String) (result : Except Failure Json) : Service × List Returned :=
  ({ s with pc := .idle }, [⟨name, result⟩])

def fails (s : Service) (name message : String) : Service × List Returned :=
  s.returns name (.error (.error message))

def goto (s : Service) (pc : CommandPc) : Service × List Returned := ({ s with pc }, [])

/-- What follows `Agent::stop`. -/
def stopped (codec : Codec) (s : Service) : Option Config → Service × List Returned
  | none => s.returns "stop" (.ok (codec.statusToJson s.last))
  | some config => s.goto (.starting config)

section

variable (lib : External) (codec : Codec)

/-- The commands that take a configuration, up to the first look at the relay. -/
def configure (s : Service) (i : CommandInput) : Service × List Returned :=
  match codec.configOfJson (i.args.index "config") with
  | none => s.fails i.name "Invalid configuration"
  | some config =>
      match parent s.path with
      | none => ({ s with pc := .panicked }, [⟨i.name, .error .panic⟩])
      | some base =>
          let config := config.resolvePaths base
          match config.validate lib with
          | .error message => s.fails i.name message
          | .ok () =>
              if i.name = "validate" then
                match i.connector with
                | .error message => s.fails i.name message
                | .ok () => s.returns i.name (.ok (.string ("Configuration and credentials valid. " ++
                    "Connectivity is checked when the relay starts.")))
              else s.goto (.applying i.name config)

def commandStep (i : CommandInput) (s : Service) : Service × List Returned :=
  match s.pc with
  | .idle =>
      match i.name with
      | "status" => s.returns "status" (.ok (codec.statusToJson (s.status i.now)))
      | "default_config" => s.returns "default_config" (.ok (codec.configToJson s.config))
      | "stop" => s.goto (.stopping none)
      | "normalize_source_ip" =>
          match parseIpAddr ((i.args.index "ip").asStr.getD "") with
          | some ip => s.returns "normalize_source_ip" (.ok (.string (canonicalIp ip).display))
          | none => s.fails "normalize_source_ip" "Enter an exact IPv4 or IPv6 address"
      | "load_config" => s.goto .loading
      | "start" | "validate" | "save_config" => s.configure lib codec i
      | _ => s.fails i.name "Unknown management command"
  | .loading =>
      if (s.status i.now).running then
        s.fails "load_config" "Stop the relay before loading settings"
      else
        match Config.load lib codec.configOfToml s.path i.file with
        | .ok config => s.returns "load_config" (.ok (codec.configToJson config))
        | .error message => s.fails "load_config" message
  | .applying name config =>
      if (s.status i.now).running then s.fails name "Stop the relay before applying settings"
      else if name = "save_config" then
        match i.saved with
        | .error message => s.fails name message
        | .ok () => { s with config }.returns name (.ok (.bool true))
      else
        match i.connector with
        | .error message => s.fails name message
        | .ok () => s.goto (.stopping (some config))
  | .stopping next =>
      match s.relay with
      | none => s.stopped codec next
      | some relay => ({ s with relay := some (relay.next lib (.stop i.now)), pc := .joining next }, [])
  | .joining next =>
      match s.relay with
      | none => (s, [])
      | some relay =>
          if relay.Ended then
            let relay := relay.next lib .join
            { s with
              relay := none
              last := snapshot relay.world.shared i.now
              past := relay :: s.past }.stopped codec next
          else (s, [])
  | .starting config =>
      match Launched.start lib config i.boot with
      | .error message => s.fails "start" message
      | .ok relay =>
          ({ s with relay := some relay, config, past := s.relay.toList ++ s.past, pc := .started }, [])
  | .started => s.returns "start" (.ok (codec.statusToJson (s.status i.now)))
  | .panicked => (s, [])

end

end Service

inductive ServiceAction where
  | command (i : CommandInput)
  /-- A thread of the agent's relay. -/
  | relay (step : ThreadStep)
  /-- A thread of a relay the agent has let go of. -/
  | past (n : Nat) (step : ThreadStep)

section

variable (lib : External) (codec : Codec)

def Service.next (s : Service) : ServiceAction → Service
  | .command i => (s.commandStep lib codec i).1
  | .relay step => { s with relay := s.relay.map (·.next lib step.action) }
  | .past n step => { s with past := s.past.modify n (·.next lib step.action) }

def Service.emit (s : Service) : ServiceAction → List Returned
  | .command i => (s.commandStep lib codec i).2
  | .relay _ => []
  | .past _ _ => []

/-- The agent `run` builds around its first relay. -/
def Service.start (config : Config) (path : String) (boot : Boot) : Service where
  config
  path
  relay := some ⟨config, World.start config boot⟩
  last := Status.default
  pc := .idle
  past := []

/-- The agent: every interleaving of its commands with the threads of its relays. -/
def service (config : Config) (path : String) (boot : Boot) : Machine Service ServiceAction Returned where
  init := Service.start config path boot
  next := Service.next lib codec
  emit := Service.emit lib codec

end

end SyslogDtlsAgent
