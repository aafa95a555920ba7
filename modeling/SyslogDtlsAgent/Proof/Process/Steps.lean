import SyslogDtlsAgent.Cli.Process
import SyslogDtlsAgent.Proof.Web.Service

/-!
# What the main thread can do

`takeUp` and the answer to the command it calls are `handle`, cut in two. `MainTurn` lists the steps of the
main thread with what later proofs need of each; the steps inside a command are `commandStep`, so the turns
of the agent carry over.
-/

namespace SyslogDtlsAgent

open Library

variable {lib : External} {codec : Codec}

/-! ### A request in two parts -/

/-- `serve` is its checks followed by the command they let through. -/
theorem serve_eq_route (agent : Agent) (auth : Option Auth) (request : Request) (effects : Effects) :
    serve lib codec agent auth request effects =
      match route codec auth.isSome request with
      | .answered outcome => ⟨agent, auth, outcome, none⟩
      | .called name args =>
          ⟨(agent.command lib codec name args effects).1, auth,
            answerOf (agent.command lib codec name args effects).2, some (name, args)⟩ := by
  unfold serve route
  by_cases hget : request.method = .get
  · simp only [if_pos hget]
    cases assetAt request.url auth.isSome with
    | none => rfl
    | some file => rfl
  simp only [if_neg hget]
  split
  · rfl
  split
  · rfl
  split
  · rfl
  cases request.body with
  | none => rfl
  | some body =>
      simp only
      cases codec.json body with
      | none => rfl
      | some args =>
          simp only
          congr 1

/-- So is `handle`, which the process runs in these two parts. -/
theorem handle_eq_takeUp (address : SocketAddr) (agent : Agent) (auth : Option Auth) (x : Exchange)
    (effects : Effects) :
    handle lib codec address agent auth x effects =
      match takeUp lib codec address auth x with
      | (auth, .answered outcome) => ⟨agent, auth, outcome, none⟩
      | (auth, .called name args) =>
          ⟨(agent.command lib codec name args effects).1, auth,
            answerOf (agent.command lib codec name args effects).2, some (name, args)⟩ := by
  unfold handle takeUp
  simp only
  split
  · rfl
  split
  · rfl
  cases auth with
  | none =>
      simp only [serve_eq_route, Option.isSome_none]
      split <;> simp only [*]
  | some auth =>
      simp only
      generalize auth.gate lib x = answer
      obtain ⟨after, outcome⟩ := answer
      cases outcome with
      | reply response => rfl
      | panic => rfl
      | forward =>
          simp only [serve_eq_route, Option.isSome_some]
          split <;> simp only [*]

/-! ### The turns of the main thread -/

/-- In the loop, and not inside a request. -/
def MainPc.between : MainPc → Bool
  | .top | .reporting | .reported | .waiting => true
  | _ => false

inductive MainTurn (lib : External) (codec : Codec) (p : Process) : Process → List ProcessEvent → Prop where
  | loop (pc : MainPc) (last : Instant) (lines : List Status) (hpc : p.pc.between = true)
      (hnext : pc.between = true) (hlines : ∀ status ∈ lines, ∃ now, status = p.service.status now) :
      MainTurn lib codec p { p with last, pc } (lines.map .reported)
  | leave (result : Except Failure Unit) (hpc : p.pc.between = true) : MainTurn lib codec p (p.ends result) []
  | took {address : SocketAddr} (x : Exchange) (auth : Option Auth) (outcome : Outcome) (hpc : p.pc = .waiting)
      (hhttp : p.http = some address) (htaken : takeUp lib codec address p.auth x = (auth, .answered outcome)) :
      MainTurn lib codec p ({ p with auth }.answers outcome) [.took x (.answered outcome)]
  | called {address : SocketAddr} (x : Exchange) (auth : Option Auth) (name : String) (args : Json)
      (hpc : p.pc = .waiting) (hhttp : p.http = some address)
      (htaken : takeUp lib codec address p.auth x = (auth, .called name args)) :
      MainTurn lib codec p { p with auth, pc := .commanding x name args } [.took x (.called name args)]
  /-- A step inside a command, which does not return. -/
  | inside (i : CommandInput) (service : Service) {x : Exchange} (hpc : p.pc = .commanding x i.name i.args)
      (hstep : p.service.commandStep lib codec i = (service, [])) :
      MainTurn lib codec p { p with service } []
  | returned (i : CommandInput) (service : Service) (returned : Returned) (more : List Returned) {x : Exchange}
      (hpc : p.pc = .commanding x i.name i.args)
      (hstep : p.service.commandStep lib codec i = (service, returned :: more)) :
      MainTurn lib codec p ({ p with service }.answers (answerOf returned.result))
        [.answered x (answerOf returned.result)]
  /-- A step of the last `stop`, and its end. -/
  | stops (i : CommandInput) (service : Service) {result : Except Failure Unit} (hpc : p.pc = .ending result)
      (hstep : p.service.commandStep lib codec i = (service, [])) :
      MainTurn lib codec p { p with service } []
  | exits (i : CommandInput) (service : Service) (returned : Returned) (more : List Returned)
      (result : Except Failure Unit) (hpc : p.pc = .ending result)
      (hstep : p.service.commandStep lib codec i = (service, returned :: more)) :
      MainTurn lib codec p { p with service, pc := .exited result } (Process.lastLine service result)
  | exited {result : Except Failure Unit} (hpc : p.pc = .exited result) : MainTurn lib codec p p []

theorem turn_of_step {s service : Service} {events : List Returned} {i : CommandInput}
    (h : s.commandStep lib codec i = (service, events)) : CommandTurn lib codec s service events := by
  have hturn : CommandTurn lib codec s _ _ := turn_commandStep s i
  rw [h] at hturn
  exact hturn

/-- Every step of the main thread is one of the turns. -/
theorem turn_mainStep (p : Process) (i : MainInput) :
    MainTurn lib codec p (p.mainStep lib codec i).1 (p.mainStep lib codec i).2 := by
  cases hpc : p.pc with
  | top =>
      have hbetween : p.pc.between = true := by rw [hpc]; rfl
      simp only [Process.mainStep, hpc]
      split
      · exact .loop .reporting p.last [] hbetween rfl (by simp)
      · exact .leave _ hbetween
  | reporting =>
      have hbetween : p.pc.between = true := by rw [hpc]; rfl
      simp only [Process.mainStep, hpc]
      split
      · exact .loop .reported p.last [p.service.status i.now] hbetween rfl (by simp)
      · exact .loop .waiting p.last [] hbetween rfl (by simp)
  | reported =>
      have hbetween : p.pc.between = true := by rw [hpc]; rfl
      simp only [Process.mainStep, hpc]
      exact .loop .waiting i.now [] hbetween rfl (by simp)
  | waiting =>
      have hbetween : p.pc.between = true := by rw [hpc]; rfl
      simp only [Process.mainStep, hpc]
      cases hhttp : p.http with
      | none => exact .loop .top p.last [] hbetween rfl (by simp)
      | some address =>
          simp only
          cases i.received with
          | error message => exact .leave _ hbetween
          | ok received =>
              cases received with
              | none => exact .loop .top p.last [] hbetween rfl (by simp)
              | some x =>
                  simp only [Process.takes]
                  split
                  · rename_i auth outcome htaken
                    exact .took x auth outcome hpc hhttp htaken
                  · rename_i auth name args htaken
                    exact .called x auth name args hpc hhttp htaken
  | commanding x name args =>
      simp only [Process.mainStep, hpc]
      split
      · rename_i service hstep
        rw [← hpc]
        exact .inside { i.toCommandInput with name, args } service hpc hstep
      · rename_i service returned more hstep
        exact .returned { i.toCommandInput with name, args } service returned more hpc hstep
  | ending result =>
      simp only [Process.mainStep, hpc]
      split
      · rename_i service hstep
        rw [← hpc]
        exact .stops i.toCommandInput service hpc hstep
      · rename_i service returned more hstep
        exact .exits i.toCommandInput service returned more result hpc hstep
  | exited result =>
      simp only [Process.mainStep, hpc]
      exact .exited hpc

end SyslogDtlsAgent
