import SyslogDtlsAgent.Proof.Process.Relays
import SyslogDtlsAgent.Proof.Relay.Shutdown
import SyslogDtlsAgent.Proof.Web.Whole

/-!
# After a signal

Once the flag of the signal handler is set, the main thread goes round its loop at most once more. `remaining`
counts the steps it has left; each of its steps lowers it, unless it waits for the threads of a relay, and
those it has asked to stop.
-/

namespace SyslogDtlsAgent

open Library

variable {lib : External} {codec : Codec}

/-! ### Requests -/

def ProcessEvent.takes : ProcessEvent → Bool
  | .took _ _ => true
  | _ => false

/-- How many requests the main thread can still take up before it is at the condition of its loop. -/
def MainPc.allowance : MainPc → Nat
  | .reporting | .reported | .waiting => 1
  | _ => 0

theorem MainPc.allowance_le (pc : MainPc) : pc.allowance ≤ 1 := by
  cases pc with
  | top | reporting | reported | waiting | commanding | ending | exited => simp [MainPc.allowance]

theorem Process.answers_allowance (p : Process) (outcome : Outcome) : (p.answers outcome).pc.allowance = 0 := by
  cases outcome with
  | forward | reply | panic => rfl

theorem mainStep_allowance {p : Process} (hstop : p.stopping = true) (i : MainInput) :
    (p.mainStep lib codec i).2.countP ProcessEvent.takes + (p.mainStep lib codec i).1.pc.allowance ≤
      p.pc.allowance := by
  cases hpc : p.pc with
  | top =>
      simp only [Process.mainStep, hpc, hstop, Bool.not_true, Bool.false_and, Bool.false_eq_true, if_false]
      exact Nat.le_refl _
  | reporting =>
      simp only [Process.mainStep, hpc]
      split <;> exact Nat.le_refl _
  | reported =>
      simp only [Process.mainStep, hpc]
      exact Nat.le_refl _
  | waiting =>
      simp only [Process.mainStep, hpc]
      cases p.http with
      | none => exact Nat.zero_le _
      | some address =>
          simp only
          cases i.received with
          | error message => exact Nat.zero_le _
          | ok received =>
              cases received with
              | none => exact Nat.zero_le _
              | some x =>
                  simp only [Process.takes]
                  split
                  · rw [Process.answers_allowance]
                    exact Nat.le_refl _
                  · exact Nat.le_refl _
  | commanding x name args =>
      simp only [Process.mainStep, hpc]
      split
      · exact Nat.le_refl _
      · rw [Process.answers_allowance]
        exact Nat.le_refl _
  | ending result =>
      simp only [Process.mainStep, hpc]
      split
      · exact Nat.le_refl _
      · cases result with
        | ok _ => exact Nat.le_refl _
        | error failure => exact Nat.le_refl _
  | exited result =>
      simp only [Process.mainStep, hpc]
      exact Nat.le_refl _

theorem Process.answers_stopping (p : Process) (outcome : Outcome) :
    (p.answers outcome).stopping = p.stopping := by
  cases outcome with
  | forward | reply | panic => rfl

theorem MainTurn.stopping {p p' : Process} {events : List ProcessEvent} (h : MainTurn lib codec p p' events) :
    p'.stopping = p.stopping := by
  cases h with
  | took | returned => exact Process.answers_stopping _ _
  | loop | leave | called | inside | stops | exits | exited => rfl

/-- Nothing takes the flag back. -/
theorem Process.next_stopping {p : Process} (h : p.stopping = true) (action : ProcessAction) :
    (p.next lib codec action).stopping = true := by
  cases action with
  | main i => exact (turn_mainStep p i).stopping.trans h
  | relay | past => exact h
  | signal => rfl

theorem taken_le_allowance {p q : Process} (hstop : q.stopping = true) (actions : List ProcessAction) :
    ((process lib codec p).traceFrom q actions).countP ProcessEvent.takes +
      ((process lib codec p).runFrom q actions).pc.allowance ≤ q.pc.allowance := by
  have hboth := (process lib codec p).induction_from
    (P := fun _ p' events => p'.stopping = true ∧
      events.countP ProcessEvent.takes + p'.pc.allowance ≤ q.pc.allowance)
    ⟨hstop, by simp⟩
    (fun _ p' events action h => by
      refine ⟨p'.next_stopping h.1 action, ?_⟩
      rw [List.countP_append]
      cases action with
      | main i =>
          have hstep := @mainStep_allowance lib codec p' h.1 i
          have hbefore := h.2
          change _ + (p'.mainStep lib codec i).2.countP _ + (p'.mainStep lib codec i).1.pc.allowance ≤ _
          omega
      | relay | past | signal => exact h.2)
    actions
  exact hboth.2

/-! ### Steps -/

/-- How many steps a command has left, at most, apart from waiting. -/
def CommandPc.remaining : CommandPc → Nat
  | .idle => 8
  | .loading => 7
  | .applying _ _ => 6
  | .stopping _ => 5
  | .joining _ => 4
  | .starting _ => 3
  | .started => 2
  | .panicked => 1

/-- And the main thread, once it has been asked to stop, with the agent at some place of its commands. -/
def MainPc.remaining (command : CommandPc) : MainPc → Nat
  | .reporting => 14
  | .reported => 13
  | .waiting => 12
  | .commanding _ _ _ => 3 + command.remaining
  | .top => 3
  | .ending _ => command.remaining - 3
  | .exited _ => 0

def Process.remaining (p : Process) : Nat := p.pc.remaining p.service.pc

/-- The agent waits for the threads of its relay. -/
def Service.Waits (s : Service) : Prop := ∃ next, s.pc = .joining next ∧ ∀ relay ∈ s.relay, ¬ relay.Ended

theorem stopped_remaining (s : Service) (next : Option Config) (hnone : (s.stopped codec next).2 = []) :
    (s.stopped codec next).1.pc.remaining = 3 := by
  cases next with
  | none => cases hnone
  | some config => rfl

theorem configure_remaining {s : Service} (i : CommandInput) (hnone : (s.configure lib codec i).2 = []) :
    (s.configure lib codec i).1.pc.remaining < 8 := by
  revert hnone
  unfold Service.configure
  split
  · exact fun h => by cases h
  split
  · exact fun h => by cases h
  simp only
  split
  · exact fun h => by cases h
  split
  · split <;> exact fun h => by cases h
  · intro _
    simp only [Service.goto, CommandPc.remaining]
    omega

/-- A step inside a command returns, or brings the command closer to its end, or waits. -/
theorem commandStep_remaining {s : Service} (hwaits : ¬ s.Waits) (hpanicked : s.pc ≠ .panicked)
    (hrelay : ∀ next, s.pc = .joining next → s.relay.isSome = true) (i : CommandInput)
    (hnone : (s.commandStep lib codec i).2 = []) :
    (s.commandStep lib codec i).1.pc.remaining < s.pc.remaining := by
  revert hnone
  cases hpc : s.pc with
  | idle =>
      simp only [Service.commandStep, hpc]
      split
      · exact fun h => by cases h
      · exact fun h => by cases h
      · exact fun _ => (by decide : 5 < 8)
      · split <;> exact fun h => by cases h
      · exact fun _ => (by decide : 7 < 8)
      · exact configure_remaining i
      · exact configure_remaining i
      · exact configure_remaining i
      · exact fun h => by cases h
  | loading =>
      simp only [Service.commandStep, hpc]
      split
      · exact fun h => by cases h
      split <;> exact fun h => by cases h
  | applying name config =>
      simp only [Service.commandStep, hpc]
      split
      · exact fun h => by cases h
      split
      · split <;> exact fun h => by cases h
      split
      · exact fun h => by cases h
      · exact fun _ => (by decide : 5 < 6)
  | stopping next =>
      simp only [Service.commandStep, hpc]
      split
      · intro hnone
        rw [stopped_remaining s next hnone]
        exact (by decide : 3 < 5)
      · exact fun _ => (by decide : 4 < 5)
  | joining next =>
      obtain ⟨relay, hsome⟩ := Option.isSome_iff_exists.mp (hrelay next hpc)
      have hended : relay.Ended := by
        by_contra hrunning
        refine hwaits ⟨next, hpc, fun r hr => ?_⟩
        rwa [← Option.some.inj (hsome.symm.trans hr)]
      simp only [Service.commandStep, hpc, hsome, if_pos hended]
      intro hnone
      rw [stopped_remaining _ next hnone]
      exact (by decide : 3 < 4)
  | starting config =>
      simp only [Service.commandStep, hpc]
      split
      · exact fun h => by cases h
      · exact fun _ => (by decide : 2 < 3)
  | started =>
      simp only [Service.commandStep, hpc]
      exact fun h => by cases h
  | panicked => exact absurd hpc hpanicked

/-- A relay that is waited for has been asked to stop. -/
def Service.Asked (s : Service) : Prop :=
  ∀ next, s.pc = .joining next → ∃ relay, s.relay = some relay ∧ relay.world.shared.stopAt.isSome = true

theorem Service.asked_of_place {s : Service} (h : ∀ next, s.pc ≠ .joining next) : s.Asked :=
  fun next hpc => absurd hpc (h next)

theorem Service.Asked.turn {s s' : Service} {events : List Returned} (h : s.Asked)
    (hturn : CommandTurn lib codec s s' events) : s'.Asked := by
  cases hturn with
  | wait => exact h
  | answer | panic | saved | reap | unstarted | started | reported =>
      exact Service.asked_of_place fun _ h => by cases h
  | proceed hpc hnext =>
      refine Service.asked_of_place fun next hjoining => ?_
      rcases hnext with rfl | rfl | ⟨name, config, rfl⟩ <;> cases hjoining
  | absent next | joined next =>
      cases next with
      | none => exact Service.asked_of_place fun _ h => by cases h
      | some config => exact Service.asked_of_place fun _ h => by cases h
  | asked next relay now hpc hrelay =>
      refine fun _ _ => ⟨_, rfl, ?_⟩
      simp only [Launched.next, World.next, stopRequest]
      split
      · rfl
      · rename_i hsome
        rw [← Option.not_isNone, Bool.eq_false_iff.mpr hsome]
        rfl

theorem Service.Asked.thread {s : Service} (h : s.Asked) (step : ThreadStep) :
    (s.next lib codec (.relay step)).Asked := by
  intro next hpc
  obtain ⟨relay, hrelay, hstop⟩ := h next hpc
  refine ⟨relay.next lib step.action, ?_, stopAt_kept hstop step.action⟩
  simp only [Service.next, hrelay, Option.map_some]

theorem Process.answers_asked {p : Process} (h : p.service.Asked) (outcome : Outcome) :
    (p.answers outcome).service.Asked := by
  cases outcome with
  | forward | reply => exact h
  | panic => exact Service.asked_of_place fun _ h => by cases h

theorem Process.next_asked {p : Process} (hp : Orderly p) (h : p.service.Asked) (action : ProcessAction) :
    (p.next lib codec action).service.Asked := by
  cases action with
  | main i =>
      have hturn : MainTurn lib codec p _ _ := turn_mainStep p i
      simp only [Process.next]
      generalize (p.mainStep lib codec i).1 = after at hturn
      generalize (p.mainStep lib codec i).2 = events at hturn
      cases hturn with
      | loop | called | exited => exact h
      | leave => exact Service.asked_of_place fun _ h => by cases h
      | took x auth outcome => exact @Process.answers_asked { p with auth } h outcome
      | inside i service hpc hstep => exact h.turn (turn_of_step hstep)
      | returned i service returned more hpc hstep => exact Process.answers_asked (h.turn (turn_of_step hstep)) _
      | stops i service hpc hstep => exact h.turn (turn_of_step hstep)
      | exits i service returned more result hpc hstep => exact h.turn (turn_of_step hstep)
  | relay step => exact @Service.Asked.thread lib codec p.service h step
  | past n step =>
      rw [Process.next, hp.consistent.next_past]
      exact h
  | signal => exact h

/-! ### The main thread after a signal -/

structure Signalled (p : Process) : Prop where
  orderly : Orderly p
  asked : p.service.Asked
  stopping : p.stopping = true

theorem Signalled.next {p : Process} (h : Signalled p) (action : ProcessAction) :
    Signalled (p.next lib codec action) :=
  ⟨h.orderly.next action, p.next_asked h.orderly h.asked action, p.next_stopping h.stopping action⟩

theorem Process.answers_remaining (p : Process) (outcome : Outcome) : (p.answers outcome).remaining ≤ 3 := by
  cases outcome with
  | forward | reply => exact Nat.le_refl _
  | panic => exact (by decide : 2 ≤ 3)

theorem CommandPc.remaining_bounds (pc : CommandPc) : 0 < pc.remaining ∧ pc.remaining ≤ 8 := by
  cases pc with
  | idle | loading | applying | stopping | joining | starting | started | panicked =>
      simp [CommandPc.remaining]

theorem CommandPc.Last.remaining {pc : CommandPc} (h : pc.Last) : pc.remaining = 5 ∨ pc.remaining = 4 := by
  rcases h with rfl | rfl
  · exact .inl rfl
  · exact .inr rfl

theorem MainPc.remaining_le (pc : MainPc) (command : CommandPc) : pc.remaining command ≤ 14 := by
  have hcommand := command.remaining_bounds
  cases pc with
  | top | reporting | reported | waiting | exited => simp [MainPc.remaining]
  | commanding | ending => simp only [MainPc.remaining]; omega

theorem Orderly.exited_of_remaining {p : Process} (h : Orderly p) (hzero : p.remaining = 0) :
    ∃ result, p.pc = .exited result := by
  have hfits := h.fits
  unfold Process.remaining at hzero
  cases hpc : p.pc with
  | top | reporting | reported | waiting | commanding => simp [hpc, MainPc.remaining] at hzero
  | ending result =>
      rw [hpc] at hfits hzero
      have hlast := CommandPc.Last.remaining hfits
      simp only [MainPc.remaining] at hzero
      omega
  | exited result => exact ⟨result, rfl⟩

/-- Every step of the main thread that does not wait brings it closer to its end. -/
theorem Signalled.mainStep_remaining {p : Process} (h : Signalled p) (hwaits : ¬ p.service.Waits) (i : MainInput) :
    (p.mainStep lib codec i).1.remaining ≤ p.remaining - 1 := by
  have hfits := h.orderly.fits
  have hrelay : ∀ next, p.service.pc = .joining next → p.service.relay.isSome = true := by
    intro next hpc
    obtain ⟨relay, hsome, -⟩ := h.asked next hpc
    rw [hsome]
    rfl
  have hcommand (i : CommandInput) {service : Service} (hpanicked : p.service.pc ≠ .panicked)
      (hstep : p.service.commandStep lib codec i = (service, [])) :
      service.pc.remaining < p.service.pc.remaining := by
    have hlower := @commandStep_remaining lib codec p.service hwaits hpanicked hrelay i
    rw [hstep] at hlower
    exact hlower rfl
  change _ ≤ p.pc.remaining p.service.pc - 1
  cases hpc : p.pc with
  | top =>
      simp only [Process.mainStep, hpc, h.stopping, Bool.not_true, Bool.false_and, Bool.false_eq_true, if_false]
      exact Nat.le_refl 2
  | reporting =>
      simp only [Process.mainStep, hpc]
      split
      · exact Nat.le_refl 13
      · exact (by decide : 12 ≤ 13)
  | reported =>
      simp only [Process.mainStep, hpc]
      exact Nat.le_refl 12
  | waiting =>
      rw [hpc] at hfits
      have hidle : p.service.pc = .idle := hfits
      simp only [Process.mainStep, hpc]
      cases p.http with
      | none => exact (by decide : 3 ≤ 11)
      | some address =>
          simp only
          cases i.received with
          | error message => exact (by decide : 2 ≤ 11)
          | ok received =>
              cases received with
              | none => exact (by decide : 3 ≤ 11)
              | some x =>
                  simp only [Process.takes]
                  split
                  · exact (Process.answers_remaining _ _).trans (by decide : 3 ≤ 11)
                  · simp only [Process.remaining, MainPc.remaining, hidle]
                    exact Nat.le_refl 11
  | commanding x name args =>
      rw [hpc] at hfits
      simp only [Process.mainStep, hpc]
      split
      · rename_i service hstep
        have hlower := hcommand _ hfits hstep
        simp only [Process.remaining, MainPc.remaining]
        omega
      · refine (Process.answers_remaining _ _).trans ?_
        have hpositive := p.service.pc.remaining_bounds
        simp only [MainPc.remaining]
        omega
  | ending result =>
      rw [hpc] at hfits
      have hlast := CommandPc.Last.remaining hfits
      have hpanicked : p.service.pc ≠ .panicked := by
        intro hpanicked
        rw [hpanicked] at hlast
        exact absurd hlast (by decide)
      simp only [Process.mainStep, hpc]
      split
      · rename_i service hstep
        have hlower := hcommand _ hpanicked hstep
        simp only [Process.remaining, MainPc.remaining]
        omega
      · exact Nat.zero_le _
  | exited result =>
      simp only [Process.mainStep, hpc, Process.remaining]
      exact Nat.zero_le _

/-! ### Every run -/

def ProcessAction.isMain : ProcessAction → Bool
  | .main _ => true
  | _ => false

/-- The main thread is never scheduled while it waits for the threads of a relay. -/
def Unhindered (lib : External) (codec : Codec) : Process → List ProcessAction → Prop
  | _, [] => True
  | p, action :: rest =>
      (action.isMain = true → ¬ p.service.Waits) ∧ Unhindered lib codec (p.next lib codec action) rest

theorem Signalled.remaining_after {p q : Process} (h : Signalled q) {actions : List ProcessAction}
    (hunhindered : Unhindered lib codec q actions) :
    ((process lib codec p).runFrom q actions).remaining ≤
      q.remaining - actions.countP ProcessAction.isMain := by
  let M := process lib codec p
  refine @Machine.rank_le _ _ _ M (fun p' rest => Signalled p' ∧ Unhindered lib codec p' rest)
    Process.remaining ProcessAction.isMain (fun p' action rest hdue => ?_) q actions ⟨h, hunhindered⟩
  obtain ⟨hsignalled, hnow, hrest⟩ := hdue
  refine ⟨⟨hsignalled.next action, hrest⟩, ?_⟩
  cases action with
  | main i => exact hsignalled.mainStep_remaining (hnow rfl) i
  | relay step => exact Nat.le_refl _
  | past n step => exact Nat.le_refl _
  | signal => exact Nat.le_refl _

theorem runFrom_relay (p q : Process) (steps : List ThreadStep) :
    (process lib codec p).runFrom q (steps.map .relay) =
      { q with
        service := { q.service with relay := q.service.relay.map fun relay => relay.runs lib steps } } := by
  induction steps generalizing q with
  | nil =>
      obtain ⟨http, auth, ⟨config, path, relay, last, pc, past⟩, stopping, interval, lastLine, main⟩ := q
      cases relay <;> rfl
  | cons step steps ih =>
      refine (ih (q.next lib codec (.relay step))).trans ?_
      simp only [Process.next, Service.next, Option.map_map]
      rfl

/-- However the threads of a relay are, they can end, and the main thread with them. -/
theorem Signalled.can_exit {p q : Process} (h : Signalled q) :
    ∃ actions result, ((process lib codec p).runFrom q actions).pc = .exited result := by
  induction hremaining : q.remaining using Nat.strong_induction_on generalizing q with
  | _ n ih =>
      by_cases hzero : n = 0
      · obtain ⟨result, hexited⟩ := h.orderly.exited_of_remaining (hremaining.trans hzero)
        exact ⟨[], result, hexited⟩
      -- first its threads, then the main thread
      obtain ⟨steps, hended⟩ : ∃ steps : List ThreadStep,
          ¬ ((process lib codec p).runFrom q (steps.map .relay)).service.Waits := by
        by_cases hwaits : q.service.Waits
        · obtain ⟨next, hpc, hrunning⟩ := hwaits
          obtain ⟨relay, hrelay, hstop⟩ := h.asked next hpc
          obtain ⟨steps, hended⟩ := relay.can_end lib hstop
          refine ⟨steps, fun hwaits => ?_⟩
          obtain ⟨_, _, hrunning⟩ := hwaits
          rw [runFrom_relay] at hrunning
          simp only [hrelay, Option.map_some] at hrunning
          exact hrunning _ rfl hended
        · exact ⟨[], hwaits⟩
      have hthreads : Signalled ((process lib codec p).runFrom q (steps.map .relay)) :=
        (process lib codec p).invariant_from (fun _ action h => h.next action) h _
      have hsame : ((process lib codec p).runFrom q (steps.map .relay)).remaining = n := by
        rw [runFrom_relay, ← hremaining]
        rfl
      let i : MainInput := ⟨⟨"", .null, 0, .error "", .error "", .error "", .error ""⟩, .ok none⟩
      have hlower := @Signalled.mainStep_remaining lib codec _ hthreads hended i
      have hnext : Signalled (Process.next lib codec _ (.main i)) := hthreads.next (.main i)
      change (Process.next lib codec _ (.main i)).remaining ≤ _ at hlower
      obtain ⟨actions, result, hexited⟩ := ih _ (by omega) hnext rfl
      refine ⟨steps.map .relay ++ .main i :: actions, result, ?_⟩
      rw [Machine.runFrom_append, Machine.runFrom_cons]
      exact hexited

theorem a_signal_ends_the_process (lib : External) (codec : Codec) (args : RunArgs) (setup : Setup)
    {p : Process} (hboot : Process.boot lib codec args setup = .ok (some p)) (actions : List ProcessAction)
    (hsignal : ((process lib codec p).run actions).stopping = true) :
    let M := process lib codec p
    let q := M.run actions
    (∀ more, (M.traceFrom q more).countP ProcessEvent.takes ≤ 1) ∧
      (∀ more, Unhindered lib codec q more → 14 ≤ more.countP ProcessAction.isMain →
        ∃ result, (M.runFrom q more).pc = .exited result) ∧
      (q.service.Waits → ∃ relay, q.service.relay = some relay ∧ relay.world.shared.stopAt.isSome = true) ∧
      ∃ more result, (M.runFrom q more).pc = .exited result := by
  intro M q
  obtain ⟨config, hbooted⟩ := Process.boot_spec hboot
  have hstart := hbooted.orderly
  have hidle : p.service.Asked := by
    obtain ⟨relay, -, -, hservice⟩ := hbooted.service
    rw [hservice]
    exact Service.asked_of_place fun _ h => by cases h
  have hboth := M.invariant (P := fun p' => Orderly p' ∧ p'.service.Asked) ⟨hstart, hidle⟩
    (fun p' action h => ⟨h.1.next action, p'.next_asked h.1 h.2 action⟩) actions
  have hq : Signalled q := ⟨hboth.1, hboth.2, hsignal⟩
  refine ⟨fun more => ?_, fun more hunhindered hmain => ?_, fun hwaits => ?_, hq.can_exit⟩
  · calc (M.traceFrom q more).countP ProcessEvent.takes
        ≤ (M.traceFrom q more).countP ProcessEvent.takes + (M.runFrom q more).pc.allowance := Nat.le_add_right _ _
      _ ≤ q.pc.allowance := taken_le_allowance hsignal more
      _ ≤ 1 := q.pc.allowance_le
  · have hzero : (M.runFrom q more).remaining = 0 := by
      have hafter : (M.runFrom q more).remaining ≤ q.remaining - more.countP ProcessAction.isMain :=
        hq.remaining_after hunhindered
      have hbound : q.remaining ≤ 14 := q.pc.remaining_le q.service.pc
      omega
    have horderly : Orderly (M.runFrom q more) := orderly hq.orderly more
    exact horderly.exited_of_remaining hzero
  · obtain ⟨next, hpc, -⟩ := hwaits
    exact hq.asked next hpc

/-! ### A signal during a command

A process with its interface, in the middle of a `stop` that a request has called, with its relay still running. -/

namespace Hangup

def serializers : Codec := { Headless.serializers with json := fun _ => some .null }

def boot : Boot := ⟨⟨.v4 0x7f000001#32, 1514⟩, "", 0, 0, 0, 0⟩

def args : RunArgs := { Headless.args with noHttp := false }

def config : Config := Config.default.resolvePaths "/etc"

def start : Process where
  http := some ⟨.v4 0x7f000001#32, 1080⟩
  auth := none
  service := ⟨config, "/etc/agent.toml", some ⟨config, World.start config boot⟩, Status.default, .idle, []⟩
  stopping := false
  interval := 5
  last := 0 - 5
  pc := .top

def request : Request :=
  ⟨.post, "/api/stop", [("Host", "127.0.0.1:1080"), ("X-Syslog-UI", "1"), ("Content-Type", "application/json")],
    some 4, some "null"⟩

def answers : Answers :=
  ⟨0, 0, 0, 0, "", "", "", "", none, none, fun _ _ _ _ _ => "", fun _ _ _ _ => .error ""⟩

def main (received : Option Exchange) : ProcessAction :=
  .main ⟨⟨"", .null, 0, .error "", .error "", .error "", .error ""⟩, .ok received⟩

/-- A status line, the request, two steps of its command, and the signal. -/
def actions : List ProcessAction :=
  [main none, main none, main none, main (some ⟨request, answers⟩), main none, main none, .signal]

/-- The command the main thread is inside. -/
def command : MainPc → Option String
  | .commanding _ name _ => some name
  | _ => none

def waiting (s : Service) : Bool :=
  match s.pc with
  | .joining _ => s.relay.all fun relay => !decide relay.Ended
  | _ => false

theorem waits_of_waiting {s : Service} (h : waiting s = true) : s.Waits := by
  unfold waiting at h
  split at h
  · rename_i next hpc
    refine ⟨next, hpc, fun relay hrelay => ?_⟩
    rw [Option.mem_def.mp hrelay] at h
    simpa using h
  · cases h

end Hangup

theorem a_signal_ends_a_process_in_a_command :
    let M := process Headless.parsers Hangup.serializers Hangup.start
    let q := M.run Hangup.actions
    Hangup.command q.pc = some "stop" ∧ q.service.Waits ∧
      (∃ relay, q.service.relay = some relay ∧ relay.world.shared.stopAt.isSome = true) ∧
      ∃ more result, (M.runFrom q more).pc = .exited result := by
  intro M q
  have hcommand : Hangup.command q.pc = some "stop" := by decide +kernel
  have hwaits : q.service.Waits := Hangup.waits_of_waiting (by decide +kernel)
  obtain ⟨-, -, hasked, hexits⟩ := a_signal_ends_the_process Headless.parsers Hangup.serializers Hangup.args
    Headless.setup (p := Hangup.start) rfl Hangup.actions rfl
  exact ⟨hcommand, hwaits, hasked hwaits, hexits⟩

end SyslogDtlsAgent
