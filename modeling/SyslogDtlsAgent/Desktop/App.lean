import SyslogDtlsAgent.Cli.Service

/-!
# The desktop application

`AppState` of the desktop shell and the commands of its webview that touch it. Each runs on a thread of its
own and holds the lock of the state while it runs, so at any time one of them is at work, and the others wait.
Like `Agent::command` it is cut at every critical section of the relay it enters.
-/

namespace SyslogDtlsAgent

open Library

/-- A command that locks the state; the last one is the handler of the exit of the event loop. -/
inductive DesktopCall where
  | status
  | start (config : Config)
  | stop
  | exit

/-- Where the holder of the lock is. -/
inductive DesktopPc where
  | free
  /-- `start`, before it reads the status. -/
  | checking (config : Config)
  /-- `Relay::stop`, before and between its critical sections, with the command it is part of. -/
  | stopping (call : DesktopCall)
  | joining (call : DesktopCall)
  /-- `start`, from where it resolves the paths. -/
  | starting (config : Config)
  /-- `start`, before it reads the status of the new relay. -/
  | started (config : Config)

structure Desktop where
  relay : Option Launched
  last : Status
  pc : DesktopPc
  past : List Launched

/-- What the next step gets from outside; a command is taken up when the lock is free. -/
structure DesktopInput where
  call : DesktopCall
  now : Instant
  /-- `std::env::current_dir`. -/
  directory : Except String String
  connector : Except String Unit
  boot : Except String Boot

/-- A command that has returned; the handler of the exit returns no status. -/
structure DesktopReturned where
  call : DesktopCall
  result : Except String (Option Status)

namespace Desktop

def goto (s : Desktop) (pc : DesktopPc) : Desktop × List DesktopReturned := ({ s with pc }, [])

def returns (s : Desktop) (call : DesktopCall) (result : Except String (Option Status)) :
    Desktop × List DesktopReturned :=
  ({ s with pc := .free }, [⟨call, result⟩])

/-- What follows `Relay::stop`, or its absence. -/
def stopped (s : Desktop) : DesktopCall → Desktop × List DesktopReturned
  | .start config => s.goto (.starting config)
  | .exit => s.returns .exit (.ok none)
  | call => s.returns call (.ok (some s.last))

/-- Without the relay `Relay::stop` has returned from; the handler of the exit keeps no status. -/
def reap (s : Desktop) (call : DesktopCall) (relay : Launched) (now : Instant) : Desktop where
  relay := none
  last := match call with
    | .exit => s.last
    | _ => snapshot relay.world.shared now
  pc := s.pc
  past := relay :: s.past

def status (s : Desktop) (now : Instant) : Status :=
  match s.relay with
  | some relay => snapshot relay.world.shared now
  | none => s.last

def step (lib : External) (i : DesktopInput) (s : Desktop) : Desktop × List DesktopReturned :=
  match s.pc with
  | .free =>
      match i.call with
      | .status => s.returns .status (.ok (some (s.status i.now)))
      | .start config => s.goto (.checking config)
      | call => s.goto (.stopping call)
  | .checking config =>
      if s.relay.any fun relay => (snapshot relay.world.shared i.now).running then
        s.returns (.start config) (.error "Stop the relay before applying new settings")
      else s.goto (.stopping (.start config))
  | .stopping call =>
      match s.relay with
      | none => s.stopped call
      | some relay => ({ s with relay := some (relay.next lib (.stop i.now)), pc := .joining call }, [])
  | .joining call =>
      match s.relay with
      | none => (s, [])
      | some relay =>
          if relay.Ended then
            (s.reap call (relay.next lib .join) i.now).stopped call
          else (s, [])
  | .starting config =>
      let started : Except String Launched := do
        let directory ← i.directory
        i.connector
        Launched.start lib (config.resolvePaths directory) i.boot
      match started with
      | .error message => s.returns (.start config) (.error message)
      | .ok relay => ({ s with relay := some relay, past := s.relay.toList ++ s.past, pc := .started config }, [])
  | .started config => s.returns (.start config) (.ok (some (s.status i.now)))

end Desktop

inductive DesktopAction where
  | call (i : DesktopInput)
  /-- A thread of the relay, and of one that has been let go of. -/
  | relay (step : ThreadStep)
  | past (n : Nat) (step : ThreadStep)

section

variable (lib : External)

def Desktop.next (s : Desktop) : DesktopAction → Desktop
  | .call i => (s.step lib i).1
  | .relay step => { s with relay := s.relay.map (·.next lib step.action) }
  | .past n step => { s with past := s.past.modify n (·.next lib step.action) }

def Desktop.emit (s : Desktop) : DesktopAction → List DesktopReturned
  | .call i => (s.step lib i).2
  | .relay _ => []
  | .past _ _ => []

/-- `Shared::default()`, and every interleaving of commands and threads. -/
def desktop : Machine Desktop DesktopAction DesktopReturned where
  init := ⟨none, Status.default, .free, []⟩
  next := Desktop.next lib
  emit := Desktop.emit lib

end

end SyslogDtlsAgent
