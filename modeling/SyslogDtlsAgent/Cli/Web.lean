import SyslogDtlsAgent.Cli.Auth
import SyslogDtlsAgent.Core.Relay

/-!
# The management interface

`web.rs`: the agent behind the browser interface, its commands, and the handler every request goes
through. What a command meets outside (files, credentials, sockets, the threads of a relay it joins)
comes in as `Effects`, the derived serializers as a `Codec`.
-/

namespace SyslogDtlsAgent

structure Codec where
  /-- `serde_json::from_str`. -/
  json : String → Option Json
  configOfJson : Json → Option Config
  configToJson : Config → Json
  statusToJson : Status → Json
  configOfToml : String → Option Config

/-- A relay the agent has started, with what its threads last wrote. -/
structure RunningRelay where
  config : Config
  shared : State

structure Agent where
  config : Config
  path : String
  relay : Option RunningRelay
  last : Status

structure Effects where
  now : Instant
  /-- The state of the running relay once both its threads have ended. -/
  joined : State
  /-- `OpenSslConnector::new`, reading and writing the configuration file, and binding the socket and
  spawning the threads of a relay. -/
  connector : Except String Unit
  file : Except String String
  saved : Except String Unit
  boot : Except String Boot

/-- How a command ends without a value. -/
inductive Failure where
  | error (message : String)
  | panic

namespace Agent

def status (agent : Agent) (effects : Effects) : Status :=
  match agent.relay with
  | some relay => snapshot relay.shared effects.now
  | none => agent.last

def stop (agent : Agent) (effects : Effects) : Agent :=
  match agent.relay with
  | some _ => { agent with relay := none, last := snapshot (stopFinish effects.joined) effects.now }
  | none => agent

/-- `Relay::start`. -/
def startRelay (lib : External) (config : Config) (effects : Effects) : Except String RunningRelay := do
  config.validate lib
  let boot ← effects.boot
  return ⟨config, State.start config boot⟩

/-- The commands that take a configuration: `start`, `validate` and `save_config`. -/
def configure (lib : External) (codec : Codec) (agent : Agent) (command : String) (args : Json)
    (effects : Effects) : Agent × Except Failure Json :=
  match codec.configOfJson (args.index "config") with
  | none => (agent, .error (.error "Invalid configuration"))
  | some config =>
      match parent agent.path with
      | none => (agent, .error .panic)
      | some base =>
          let config := config.resolvePaths base
          match config.validate lib with
          | .error message => (agent, .error (.error message))
          | .ok () =>
              if command = "validate" then
                match effects.connector with
                | .error message => (agent, .error (.error message))
                | .ok () => (agent, .ok (.string ("Configuration and credentials valid. " ++
                    "Connectivity is checked when the relay starts.")))
              else if (agent.status effects).running then
                (agent, .error (.error "Stop the relay before applying settings"))
              else if command = "save_config" then
                match effects.saved with
                | .error message => (agent, .error (.error message))
                | .ok () => ({ agent with config := config }, .ok (.bool true))
              else
                match effects.connector with
                | .error message => (agent, .error (.error message))
                | .ok () =>
                    let agent := agent.stop effects
                    match startRelay lib config effects with
                    | .error message => (agent, .error (.error message))
                    | .ok relay =>
                        let agent := { agent with relay := some relay, config := config }
                        (agent, .ok (codec.statusToJson (agent.status effects)))

def command (lib : External) (codec : Codec) (agent : Agent) (command : String) (args : Json)
    (effects : Effects) : Agent × Except Failure Json :=
  match command with
  | "status" => (agent, .ok (codec.statusToJson (agent.status effects)))
  | "default_config" => (agent, .ok (codec.configToJson agent.config))
  | "stop" =>
      let agent := agent.stop effects
      (agent, .ok (codec.statusToJson agent.last))
  | "normalize_source_ip" =>
      match parseIpAddr ((args.index "ip").asStr.getD "") with
      | some ip => (agent, .ok (.string (canonicalIp ip).display))
      | none => (agent, .error (.error "Enter an exact IPv4 or IPv6 address"))
  | "load_config" =>
      if (agent.status effects).running then
        (agent, .error (.error "Stop the relay before loading settings"))
      else
        match Config.load lib codec.configOfToml agent.path effects.file with
        | .ok config => (agent, .ok (codec.configToJson config))
        | .error message => (agent, .error (.error message))
  | "start" | "validate" | "save_config" => agent.configure lib codec command args effects
  | _ => (agent, .error (.error "Unknown management command"))

end Agent

/-! ### The handler -/

def validHost (host : String) (address : SocketAddr) : Bool :=
  if address.ip.isLoopback && host == "localhost:" ++ toString address.port then true
  else
    match parseSocketAddr host with
    | none => false
    | some host =>
        host.port == address.port &&
          (host.ip == address.ip || (address.ip.isUnspecified && host.ip.isV4 == address.ip.isV4))

/-- The embedded file for a path, with its media type. -/
def assetAt (path : String) (oidc : Bool) : Option (String × Asset) :=
  match path with
  | "/" | "/index.html" => some ("text/html; charset=utf-8", .indexHtml)
  | "/app.js" => some ("text/javascript", .appJs)
  | "/style.css" => some ("text/css", .styleCss)
  | "/icon.svg" => some ("image/svg+xml", .iconSvg)
  | "/agent-mode.js" => some ("text/javascript", .agentMode oidc)
  | _ => none

/-- What handling a request leaves, with the call of `Agent::command` it made, if any. -/
structure Handled where
  agent : Agent
  auth : Option Auth
  outcome : Outcome
  called : Option (String × Json)

/-- The part of `handle` behind the host check and the gate. -/
def serve (lib : External) (codec : Codec) (agent : Agent) (auth : Option Auth) (request : Request)
    (effects : Effects) : Handled :=
  let answer (response : Response) : Handled := ⟨agent, auth, .reply response, none⟩
  let path := request.url
  if request.method = .get then
    match assetAt path auth.isSome with
    | some (mime, asset) => answer (respond 200 mime (.asset asset))
    | none => answer (respond 404 "text/plain" (.text "Not found"))
  else if request.method ≠ .post ∨ !Text.startsWith path "/api/" then
    answer (respond 405 "text/plain" (.text "Method not allowed"))
  -- A custom header and JSON content type prevent cross-site form submissions.
  -- No CORS headers are issued. Host validation also prevents DNS rebinding.
  else if request.header "X-Syslog-UI" ≠ some "1" ∨ request.header "Content-Type" ≠ some "application/json" then
    answer (respond 403 "text/plain" (.text "Forbidden request"))
  else if request.bodyLength.all (65536 < ·) then
    answer (respond 413 "text/plain" (.text "Request too large or missing length"))
  else
    let refuse (message : String) : Handled :=
      answer (respond 400 "application/json" (.json (.object [("error", .string message)])))
    match request.body with
    | none => refuse "Cannot read request"
    | some body =>
        match codec.json body with
        | none => refuse "Invalid JSON"
        | some args =>
            let name := String.ofList (path.toList.drop 5)
            let (agent, result) := agent.command lib codec name args effects
            let outcome := match result with
              | .ok value => Outcome.reply (respond 200 "application/json" (.json value))
              | .error (.error message) =>
                  .reply (respond 400 "application/json" (.json (.object [("error", .string message)])))
              | .error .panic => .panic
            ⟨agent, auth, outcome, some (name, args)⟩

/-- The `Host` and `Origin` checks. -/
def validOrigin (address : SocketAddr) (auth : Option Auth) (request : Request) : Bool :=
  match auth with
  | some auth => auth.validRequest request
  | none =>
      let host := (request.header "Host").getD ""
      validHost host address && (request.header "Origin").all (· == "http://" ++ host)

def handle (lib : External) (codec : Codec) (address : SocketAddr) (agent : Agent) (auth : Option Auth)
    (x : Exchange) (effects : Effects) : Handled :=
  let answer (response : Response) : Handled := ⟨agent, auth, .reply response, none⟩
  if 8192 < Text.len x.request.url then answer (respond 414 "text/plain" (.text "Request URL too long"))
  else if !validOrigin address auth x.request then
    answer (respond 403 "text/plain" (.text "Forbidden origin"))
  else
    match auth with
    | none => serve lib codec agent none x.request effects
    | some auth =>
        match auth.gate lib x with
        | (auth, .forward) => serve lib codec agent (some auth) x.request effects
        | (auth, outcome) => ⟨agent, some auth, outcome, none⟩

end SyslogDtlsAgent
