import SyslogDtlsAgent.Cli.Service

/-!
# The process

`run` of `main.rs`: what it does before its loop, the loop, and how it ends. The main thread takes one
request at a time; a request that calls a command leaves it inside `Agent::command`, whose steps are those
of `Service.commandStep`, and the threads of the relays go on meanwhile. Leaving `run` early, by an error or
by a panic, drops the agent, and dropping a relay is `Relay::stop` too.
-/

namespace SyslogDtlsAgent

open Library

/-! ### Taking up a request -/

/-- What `handle` does before any command runs. -/
inductive Taken where
  | answered (outcome : Outcome)
  | called (name : String) (args : Json)

/-- The answer to a command that has returned. -/
def answerOf : Except Failure Json → Outcome
  | .ok value => .reply (respond 200 "application/json" (.json value))
  | .error (.error message) =>
      .reply (respond 400 "application/json" (.json (.object [("error", .string message)])))
  | .error .panic => .panic

/-- The part of `handle` behind the host check and the gate, up to the call of `Agent::command`. -/
def route (codec : Codec) (oidc : Bool) (request : Request) : Taken :=
  let path := request.url
  if request.method = .get then
    match assetAt path oidc with
    | some (mime, asset) => .answered (.reply (respond 200 mime (.asset asset)))
    | none => .answered (.reply (respond 404 "text/plain" (.text "Not found")))
  else if request.method ≠ .post ∨ !Text.startsWith path "/api/" then
    .answered (.reply (respond 405 "text/plain" (.text "Method not allowed")))
  else if request.header "X-Syslog-UI" ≠ some "1" ∨ request.header "Content-Type" ≠ some "application/json" then
    .answered (.reply (respond 403 "text/plain" (.text "Forbidden request")))
  else if request.bodyLength.all (65536 < ·) then
    .answered (.reply (respond 413 "text/plain" (.text "Request too large or missing length")))
  else
    match request.body with
    | none => .answered (answerOf (.error (.error "Cannot read request")))
    | some body =>
        match codec.json body with
        | none => .answered (answerOf (.error (.error "Invalid JSON")))
        | some args => .called (String.ofList (path.toList.drop 5)) args

/-- `handle` up to the call of `Agent::command`. -/
def takeUp (lib : External) (codec : Codec) (address : SocketAddr) (auth : Option Auth) (x : Exchange) :
    Option Auth × Taken :=
  if 8192 < Text.len x.request.url then
    (auth, .answered (.reply (respond 414 "text/plain" (.text "Request URL too long"))))
  else if !validOrigin address auth x.request then
    (auth, .answered (.reply (respond 403 "text/plain" (.text "Forbidden origin"))))
  else
    match auth with
    | none => (none, route codec false x.request)
    | some auth =>
        match auth.gate lib x with
        | (auth, .forward) => (some auth, route codec true x.request)
        | (auth, outcome) => (some auth, .answered outcome)

/-! ### The state of the process -/

/-- Where the main thread is in the loop of `run`. -/
inductive MainPc where
  /-- At the condition of the loop. -/
  | top
  /-- At the periodic status line, and after printing one. -/
  | reporting
  | reported
  /-- At `recv_timeout`, or asleep without an HTTP server. -/
  | waiting
  /-- Inside `Agent::command`, for a request. -/
  | commanding (x : Exchange) (name : String) (args : Json)
  /-- In the last `stop`, of `run` itself or of the agent being dropped. -/
  | ending (result : Except Failure Unit)
  | exited (result : Except Failure Unit)

structure Process where
  /-- The address of the HTTP server, unless it is disabled. -/
  http : Option SocketAddr
  auth : Option Auth
  service : Service
  /-- The flag the signal handler sets. -/
  stopping : Bool
  interval : Duration
  last : Instant
  pc : MainPc

structure MainInput extends CommandInput where
  /-- `recv_timeout`: it fails, or times out, or returns a request. -/
  received : Except String (Option Exchange)

inductive ProcessEvent where
  /-- A status line on standard output. -/
  | reported (status : Status)
  | took (x : Exchange) (taken : Taken)
  /-- The answer to a request that called a command. -/
  | answered (x : Exchange) (outcome : Outcome)

namespace Process

def goto (p : Process) (pc : MainPc) : Process := { p with pc }

/-- On to the last `stop`. -/
def ends (p : Process) (result : Except Failure Unit) : Process :=
  { p with service := (p.service.goto (.stopping none)).1, pc := .ending result }

/-- On to the next request, unless answering this one has failed an `unwrap`. -/
def answers (p : Process) : Outcome → Process
  | .panic => p.ends (.error .panic)
  | _ => p.goto .top

/-- The line `run` prints after its loop, unless it has left early. -/
def lastLine (service : Service) : Except Failure Unit → List ProcessEvent
  | .ok () => [.reported service.last]
  | .error _ => []

section

variable (lib : External) (codec : Codec)

def takes (p : Process) (address : SocketAddr) (x : Exchange) : Process × List ProcessEvent :=
  match takeUp lib codec address p.auth x with
  | (auth, .answered outcome) => ({ p with auth }.answers outcome, [.took x (.answered outcome)])
  | (auth, .called name args) =>
      ({ p with auth, pc := .commanding x name args }, [.took x (.called name args)])

def mainStep (i : MainInput) (p : Process) : Process × List ProcessEvent :=
  match p.pc with
  | .top =>
      if !p.stopping && (p.http.isSome || (p.service.status i.now).running) then (p.goto .reporting, [])
      else (p.ends (.ok ()), [])
  | .reporting =>
      if p.interval ≤ i.now - p.last then (p.goto .reported, [.reported (p.service.status i.now)])
      else (p.goto .waiting, [])
  | .reported => ({ p with last := i.now, pc := .waiting }, [])
  | .waiting =>
      match p.http with
      | none => (p.goto .top, [])
      | some address =>
          match i.received with
          | .error message => (p.ends (.error (.error message)), [])
          | .ok none => (p.goto .top, [])
          | .ok (some x) => p.takes lib codec address x
  | .commanding x name args =>
      match p.service.commandStep lib codec { i.toCommandInput with name, args } with
      | (service, []) => ({ p with service }, [])
      | (service, returned :: _) =>
          ({ p with service }.answers (answerOf returned.result), [.answered x (answerOf returned.result)])
  | .ending result =>
      match p.service.commandStep lib codec i.toCommandInput with
      | (service, []) => ({ p with service }, [])
      | (service, _ :: _) =>
          ({ p with service, pc := .exited result }, lastLine service result)
  | .exited _ => (p, [])

end

end Process

inductive ProcessAction where
  | main (i : MainInput)
  /-- A thread of the agent's relay, and of one the agent has let go of. -/
  | relay (step : ThreadStep)
  | past (n : Nat) (step : ThreadStep)
  /-- Ctrl-C or SIGTERM. -/
  | signal

section

variable (lib : External) (codec : Codec)

def Process.next (p : Process) : ProcessAction → Process
  | .main i => (p.mainStep lib codec i).1
  | .relay step => { p with service := p.service.next lib codec (.relay step) }
  | .past n step => { p with service := p.service.next lib codec (.past n step) }
  | .signal => { p with stopping := true }

def Process.emit (p : Process) : ProcessAction → List ProcessEvent
  | .main i => (p.mainStep lib codec i).2
  | .relay _ => []
  | .past _ _ => []
  | .signal => []

/-- The process from the start of its loop: every interleaving of the main thread, the threads of the
relays, and signals. -/
def process (p : Process) : Machine Process ProcessAction ProcessEvent where
  init := p
  next := Process.next lib codec
  emit := Process.emit lib codec

end

/-! ### Before the loop -/

/-- The arguments of `run`. -/
structure RunArgs where
  config : Option String
  statusInterval : Nat
  httpListen : Option SocketAddr
  noHttp : Bool

/-- What `run` meets before its loop. -/
structure Setup where
  /-- `std::path::absolute` and `std::env::current_exe`. -/
  absolute : String → Except String String
  executable : Except String String
  /-- The configuration file, once its path is known. -/
  file : String → Except String String
  /-- Whether the HTTPS client can be built. -/
  built : Bool
  /-- `Server::http`. -/
  bound : Except String Unit
  connector : Except String Unit
  handler : Except String Unit
  boot : Except String Boot
  now : Instant

/-- `Path::with_file_name` of a path that names a file. -/
def withFileName (path name : String) : String := joinPath ((parent path).getD "") name

def configurationPath (config : Option String) (setup : Setup) : Except String String := do
  if let some path := config then return ← setup.absolute path
  let executable ← setup.executable
  return withFileName executable "agent.toml"

example (setup : Setup) (h : setup.executable = .ok "/opt/syslog/agent") :
    configurationPath none setup = .ok "/opt/syslog/agent.toml" := by
  simp only [configurationPath, h]
  decide

/-- `web::bind`. -/
def bindHttp (address : SocketAddr) (bound : Except String Unit) : Except String Unit := do
  reject (address.port == 0) "HTTP port must be between 1 and 65535"
  bound.mapError ("Cannot bind HTTP UI: " ++ ·)

/-- The logins and the server of a configuration, unless the interface is disabled; `none` where the `unwrap`
in `Auth::new` fails. -/
def bootAuth (lib : External) (args : RunArgs) (config : Config) (setup : Setup) :
    Except String (Option (Option Auth)) :=
  if args.noHttp then .ok (some none) else Auth.new lib config.http.oidc setup.built

def bootHttp (args : RunArgs) (config : Config) (setup : Setup) : Except String (Option SocketAddr) :=
  let listen := args.httpListen.getD ⟨config.http.address, config.http.port⟩
  if args.noHttp then .ok none else (bindHttp listen setup.bound).map fun _ => some listen

/-- `run` up to its loop. -/
def Process.boot (lib : External) (codec : Codec) (args : RunArgs) (setup : Setup) :
    Except String (Option Process) := do
  let path ← configurationPath args.config setup
  let config ← Config.load lib codec.configOfToml path (setup.file path)
  let some auth ← bootAuth lib args config setup | return none
  let http ← bootHttp args config setup
  setup.connector
  setup.handler
  let relay ← Launched.start lib config setup.boot
  let service : Service := ⟨config, path, some relay, Status.default, .idle, []⟩
  return some
    { http
      auth
      service
      stopping := false
      interval := args.statusInterval
      last := setup.now - args.statusInterval
      pc := .top }

end SyslogDtlsAgent
