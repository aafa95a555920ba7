import SyslogDtlsAgent.Proof.Process.Relays
import SyslogDtlsAgent.Proof.Web.Guards

/-!
# Who the process takes commands from

The requests that reach the gate make up a run of the gate, whatever commands, threads and signals come
between them. So a command goes back to a login of the same process, by the settings the process was started
with: saving or starting other settings changes nothing about that. And what is not a command leaves the
agent as it is.
-/

namespace SyslogDtlsAgent

open Library

variable {lib : External} {codec : Codec}

/-! ### The requests at the gate -/

namespace ProcessEvent

/-- The request a step takes up. -/
def taken : ProcessEvent → Option Exchange
  | .took x _ => some x
  | _ => none

/-- The event of a request that calls a command. -/
def calls : ProcessEvent → Bool
  | .took _ (.called _ _) => true
  | _ => false

end ProcessEvent

/-- `handle` passes the request on to the gate. -/
def Auth.reached (auth : Auth) (x : Exchange) : Bool :=
  decide (Text.len x.request.url ≤ 8192) && auth.validRequest x.request

/-- The requests that reached the gate. -/
def gated (auth : Auth) (events : List ProcessEvent) : List Exchange :=
  (events.filterMap ProcessEvent.taken).filter auth.reached

theorem gated_append (auth : Auth) (events more : List ProcessEvent) :
    gated auth (events ++ more) = gated auth events ++ gated auth more := by
  rw [gated, List.filterMap_append, List.filter_append, gated, gated]

theorem gated_of_quiet {auth : Auth} {events : List ProcessEvent} (h : ∀ e ∈ events, e.taken = none) :
    gated auth events = [] := by
  rw [gated, List.filterMap_eq_nil_iff.mpr h, List.filter_nil]

theorem gated_took (auth : Auth) (x : Exchange) (taken : Taken) :
    gated auth [.took x taken] = if auth.reached x then [x] else [] := by
  change [x].filter auth.reached = _
  rw [List.filter_cons, List.filter_nil]

/-- Which requests reach the gate is a matter of settings. -/
theorem Auth.reached_eq {a b : Auth} (h : a.settings = b.settings) : a.reached = b.reached := by
  obtain ⟨-, -, horigin, hauthority, -⟩ : _ ∧ _ ∧ a.origin = b.origin ∧ a.authority = b.authority ∧ _ := by
    simpa only [settings, Prod.mk.injEq] using h
  funext x
  rw [reached, reached, validRequest, validRequest, horigin, hauthority]

/-- Taking up a request sends it through the gate, if it gets there. -/
theorem takeUp_auth (address : SocketAddr) (auth : Auth) (x : Exchange) :
    (takeUp lib codec address (some auth) x).1 = some (if auth.reached x then (auth.gate lib x).1 else auth) := by
  unfold takeUp
  by_cases hurl : 8192 < Text.len x.request.url
  · have hreached : auth.reached x = false := by
      rw [Auth.reached, decide_eq_false (by omega), Bool.false_and]
    rw [if_pos hurl, if_neg (by rw [hreached]; exact Bool.false_ne_true)]
  rw [if_neg hurl]
  have hlength : decide (Text.len x.request.url ≤ 8192) = true := decide_eq_true (by omega)
  rw [Auth.reached, hlength, Bool.true_and]
  have horigin : validOrigin address (some auth) x.request = auth.validRequest x.request := rfl
  rw [horigin]
  cases auth.validRequest x.request with
  | false => rfl
  | true =>
      rw [if_neg (by simp), if_pos rfl]
      simp only
      generalize auth.gate lib x = answer
      obtain ⟨after, outcome⟩ := answer
      cases outcome with
      | forward | reply | panic => rfl

/-- What `route` asks of a request before it calls a command. -/
theorem route_guards {oidc : Bool} {request : Request} {name : String} {args : Json}
    (h : route codec oidc request = .called name args) : ServeGuards request := by
  unfold route at h
  simp only at h
  split at h
  · split at h <;> cases h
  rename_i hget
  split at h
  · cases h
  rename_i hroute
  split at h
  · cases h
  rename_i hheaders
  split at h
  · cases h
  rename_i hlength
  push Not at hroute hheaders
  refine ⟨hroute.1, by simpa using hroute.2, hheaders.1, hheaders.2, ?_⟩
  cases hn : request.bodyLength with
  | none => simp [hn] at hlength
  | some n => exact ⟨n, by simpa [hn] using hlength, rfl⟩

/-- A request that calls a command has reached the gate and passed it, and the guards behind it. -/
theorem takeUp_called {address : SocketAddr} {auth : Auth} {x : Exchange} {after : Option Auth} {name : String}
    {args : Json} (h : takeUp lib codec address (some auth) x = (after, .called name args)) :
    auth.reached x = true ∧ (auth.gate lib x).2 = .forward ∧ ServeGuards x.request := by
  unfold takeUp at h
  split at h
  · cases h
  rename_i hurl
  split at h
  · cases h
  rename_i hvalid
  have hvalid : auth.validRequest x.request = true := by simpa [validOrigin] using hvalid
  refine ⟨?_, ?_⟩
  · rw [Auth.reached, hvalid, Bool.and_true]
    exact decide_eq_true (by omega)
  simp only at h
  split at h
  · rename_i hgate
    refine ⟨by rw [hgate], ?_⟩
    obtain ⟨-, hroute⟩ := Prod.mk.inj h
    exact route_guards hroute
  · cases h

/-! ### The gate inside the process -/

section

variable {oidc : Oidc} {url : Url} {authority : String}

theorem logins_settings (history : List Exchange) :
    ((logins lib oidc url authority).run history).settings = (Auth.start oidc url authority).settings :=
  (logins lib oidc url authority).invariant
    (P := fun auth => auth.settings = (Auth.start oidc url authority).settings) rfl
    (fun auth x h => (turn_real lib auth x).settings.trans h) history

/-- The logins of the process are those of a gate that met the requests so far. -/
def AtGate (lib : External) (oidc : Oidc) (url : Url) (authority : String) (p : Process)
    (events : List ProcessEvent) : Prop :=
  p.auth = some ((logins lib oidc url authority).run (gated (Auth.start oidc url authority) events))

theorem AtGate.quiet {p p' : Process} {events more : List ProcessEvent} (h : AtGate lib oidc url authority p events)
    (hauth : p'.auth = p.auth) (hmore : ∀ e ∈ more, e.taken = none) :
    AtGate lib oidc url authority p' (events ++ more) := by
  rw [AtGate, hauth, gated_append, gated_of_quiet hmore, List.append_nil]
  exact h

theorem AtGate.takes {p p' : Process} {events : List ProcessEvent} {address : SocketAddr} {x : Exchange}
    {taken : Taken} (h : AtGate lib oidc url authority p events)
    (htaken : takeUp lib codec address p.auth x = (p'.auth, taken)) :
    AtGate lib oidc url authority p' (events ++ [.took x taken]) := by
  have hauth : p'.auth = (takeUp lib codec address p.auth x).1 := by rw [htaken]
  rw [AtGate, hauth, h, takeUp_auth, gated_append, gated_took, Machine.run_append,
    Auth.reached_eq (logins_settings (gated (Auth.start oidc url authority) events))]
  cases (Auth.start oidc url authority).reached x with
  | false => rfl
  | true => rfl

theorem Process.answers_auth (p : Process) (outcome : Outcome) :
    (p.answers outcome).auth = p.auth ∧ (p.answers outcome).http = p.http := by
  cases outcome with
  | forward | reply | panic => exact ⟨rfl, rfl⟩

theorem MainTurn.http {p p' : Process} {events : List ProcessEvent} (h : MainTurn lib codec p p' events) :
    p'.http = p.http := by
  cases h with
  | took | returned => exact (Process.answers_auth _ _).2
  | loop | leave | called | inside | stops | exits | exited => rfl

theorem AtGate.turn {p p' : Process} {events more : List ProcessEvent}
    (h : AtGate lib oidc url authority p events) (hturn : MainTurn lib codec p p' more) :
    AtGate lib oidc url authority p' (events ++ more) := by
  cases hturn with
  | loop pc last lines hpc hnext hlines =>
      refine h.quiet rfl fun e he => ?_
      obtain ⟨status, -, rfl⟩ := List.mem_map.mp he
      rfl
  | leave result hpc => exact h.quiet rfl (by simp)
  | took x auth outcome hpc hhttp htaken =>
      refine h.takes (htaken.trans ?_)
      rw [(Process.answers_auth _ _).1]
  | called x auth name args hpc hhttp htaken => exact h.takes htaken
  | inside i service hpc hstep => exact h.quiet rfl (by simp)
  | returned i service returned more hpc hstep =>
      exact h.quiet (Process.answers_auth _ _).1 (by simp [ProcessEvent.taken])
  | stops i service hpc hstep => exact h.quiet rfl (by simp)
  | exits i service returned more result hpc hstep =>
      refine h.quiet rfl fun e he => ?_
      cases result with
      | error failure => cases he
      | ok _ =>
          rw [List.mem_singleton.mp he]
          rfl
  | exited => exact h.quiet rfl (by simp)

theorem AtGate.next {p : Process} {events : List ProcessEvent} (h : AtGate lib oidc url authority p events)
    (action : ProcessAction) :
    AtGate lib oidc url authority (p.next lib codec action) (events ++ p.emit lib codec action) := by
  cases action with
  | main i => exact h.turn (turn_mainStep p i)
  | relay step => exact h.quiet rfl (by simp [Process.emit])
  | past n step => exact h.quiet rfl (by simp [Process.emit])
  | signal => exact h.quiet rfl (by simp [Process.emit])

/-- What a command rests on: the callback that opened its session, with a token that names the required
group, no end of that session since, and its lifetime not over. -/
structure Backed (lib : External) (oidc : Oidc) (turns : List Turn) (auth : Auth) (x : Exchange) (opening : Turn)
    (key : String) (login : Login) (tokens : TokenResponse) : Prop where
  presented : x.request.cookies (auth.cookieName "session") = [key]
  opened : opening.Opens lib key login
  /-- The tokens came for the code of the query, to the client of the pending flow, and stand for the login. -/
  exchanged : ∃ flowKey flow path query code, opening.presents "flow" = some flowKey ∧
    opening.before.flows.lookup flowKey = some flow ∧
    Text.splitOnce opening.exchange.request.url '?' = some (path, query) ∧
    Expected flow (lib.formUrlencoded query) code ∧
    opening.exchange.answers.exchange flow.client code flow.nonce flow.pkce = .ok tokens ∧
    Auth.acceptTokens oidc flow tokens opening.exchange.answers.wall = .ok login
  good : Good oidc tokens.claims ⌊opening.exchange.answers.wall⌋
  lasting : ∃ earlier later, turns = earlier ++ opening :: later ∧ ∀ t ∈ later, ¬ t.Revokes key
  unexpired : x.answers.entered < opening.exchange.answers.stored + login.lifetime

theorem backed_of_forward {history : List Exchange} {x : Exchange}
    (hforward : (((logins lib oidc url authority).run history).gate lib x).2 = .forward) :
    HasSession ((logins lib oidc url authority).run history) x ∧ ∃ opening key login tokens,
      Backed lib oidc ((logins lib oidc url authority).trace history)
        ((logins lib oidc url authority).run history) x opening key login tokens := by
  obtain ⟨key, session, hkey, hlive, hexpires⟩ := Auth.gate_forward hforward
  obtain ⟨login, hlogin, -⟩ := liveLogin_of_session hkey hlive hexpires
  refine ⟨⟨key, session, hlogin.cookie, hlive, hexpires⟩, ?_⟩
  obtain ⟨earlier, opening, later, htrace, hopens, hlater, hunexpired⟩ := hlogin.opened
  have hmem : opening ∈ (logins lib oidc url authority).trace history := by
    rw [htrace]
    exact List.mem_append_right _ List.mem_cons_self
  have hconfig : opening.before.config = oidc := Auth.config_eq (real_of_mem_trace hmem).2
  obtain ⟨flowKey, flow, path, query, code, tokens, hpresents, hflow, -, hquery, hexpected, hexchange, haccept⟩ :=
    hopens.redeemed
  rw [hconfig] at haccept
  obtain ⟨-, hgood, -, -⟩ := Auth.acceptTokens_spec haccept
  exact ⟨opening, key, login, tokens, hlogin.cookie, hopens,
    ⟨flowKey, flow, path, query, code, hpresents, hflow, hquery, hexpected, hexchange, haccept⟩, hgood,
    ⟨earlier, later, htrace, hlater⟩, hunexpired⟩

end

/-! ### What is not a command -/

/-- As long as no request calls a command, the agent is left alone. -/
structure Idling (q p : Process) : Prop where
  orderly : Orderly p
  outside : ∀ x name args, p.pc ≠ .commanding x name args
  untouched : Untouched q.service p.service

theorem Process.answers_outside (p : Process) (outcome : Outcome) :
    (∀ x name args, (p.answers outcome).pc ≠ .commanding x name args) ∧
      Untouched p.service (p.answers outcome).service := by
  cases outcome with
  | forward | reply | panic => exact ⟨(fun _ _ _ h => by cases h), ⟨rfl, rfl, rfl⟩⟩

theorem Idling.turn {q p p' : Process} {events : List ProcessEvent} (h : Idling q p)
    (hturn : MainTurn lib codec p p' events) (hquiet : ∀ e ∈ events, e.calls = false) : Idling q p' := by
  have horderly := h.orderly.turn hturn
  have hfits := h.orderly.fits
  cases hturn with
  | loop pc last lines hpc hnext hlines =>
      refine ⟨horderly, fun x name args hcommanding => ?_, h.untouched⟩
      obtain rfl : pc = .commanding x name args := hcommanding
      cases hnext
  | leave result hpc => exact ⟨horderly, (fun _ _ _ h => by cases h), h.untouched.trans ⟨rfl, rfl, rfl⟩⟩
  | took x auth outcome hpc hhttp htaken =>
      obtain ⟨houtside, huntouched⟩ := { p with auth }.answers_outside outcome
      exact ⟨horderly, houtside, h.untouched.trans huntouched⟩
  | called x auth name args hpc hhttp htaken => cases hquiet _ List.mem_cons_self
  | inside i service hpc hstep => exact absurd hpc (h.outside _ _ _)
  | returned i service returned more hpc hstep => exact absurd hpc (h.outside _ _ _)
  | stops i service hpc hstep =>
      have hstop := turn_of_step hstep
      rw [hpc] at hfits
      exact ⟨horderly, h.outside, h.untouched.trans (hstop.last hfits).1⟩
  | exits i service returned more result hpc hstep =>
      have hstop := turn_of_step hstep
      rw [hpc] at hfits
      exact ⟨horderly, (fun _ _ _ h => by cases h), h.untouched.trans (hstop.last hfits).1⟩
  | exited => exact h

theorem Idling.next {q p : Process} (h : Idling q p) (action : ProcessAction)
    (hquiet : ∀ e ∈ p.emit lib codec action, e.calls = false) : Idling q (p.next lib codec action) := by
  cases action with
  | main i => exact h.turn (turn_mainStep p i) hquiet
  | relay step => exact ⟨h.orderly.relay step, h.outside, h.untouched.trans (.thread lib codec p.service step)⟩
  | past n step =>
      refine ⟨h.orderly.next _, h.outside, ?_⟩
      rw [Process.next, h.orderly.consistent.next_past]
      exact h.untouched
  | signal => exact ⟨h.orderly.next .signal, h.outside, h.untouched⟩

theorem idling {p q : Process} (h : Orderly q) (hpc : ∀ x name args, q.pc ≠ .commanding x name args)
    (actions : List ProcessAction)
    (hquiet : ∀ e ∈ (process lib codec p).traceFrom q actions, e.calls = false) :
    Idling q ((process lib codec p).runFrom q actions) := by
  have hinduction := (process lib codec p).induction_from
    (P := fun _ p' events => (∀ e ∈ events, e.calls = false) → Idling q p')
    (fun _ => ⟨h, hpc, .refl _⟩)
    (fun _ p' events action ih hquiet => by
      obtain ⟨hbefore, hnow⟩ := List.forall_mem_append.mp hquiet
      exact (ih hbefore).next action hnow)
    actions
  exact hinduction hquiet

/-! ### Every run -/

/-- A command is called by a request the server has just taken up. -/
theorem MainTurn.called_event {p p' : Process} {events before after : List ProcessEvent} {x : Exchange}
    {name : String} {args : Json} (h : MainTurn lib codec p p' events)
    (hsplit : events = before ++ .took x (.called name args) :: after) :
    before = [] ∧ ∃ address auth, p.http = some address ∧
      takeUp lib codec address p.auth x = (auth, .called name args) := by
  have hmem : ProcessEvent.took x (.called name args) ∈ events := by
    rw [hsplit]
    exact List.mem_append_right _ List.mem_cons_self
  cases h with
  | loop pc last lines hpc hnext hlines =>
      obtain ⟨status, -, hstatus⟩ := List.mem_map.mp hmem
      cases hstatus
  | called y auth name' args' hpc hhttp htaken =>
      cases List.mem_singleton.mp hmem
      refine ⟨?_, _, auth, hhttp, htaken⟩
      cases before with
      | nil => rfl
      | cons first rest => simp at hsplit
  | took y auth outcome => cases List.mem_singleton.mp hmem
  | returned i service returned more => cases List.mem_singleton.mp hmem
  | exits i service returned more result =>
      cases result with
      | ok _ => cases List.mem_singleton.mp hmem
      | error failure => cases hmem
  | leave | inside | stops | exited => cases hmem

/-- With logins enabled, the interface is behind them, or there is none. -/
theorem Booted.gate {args : RunArgs} {setup : Setup} {p : Process} {config : Config}
    (h : Booted lib codec args setup p config) (henabled : config.http.oidc.enabled = true) :
    ∃ url authority, p.http = none ∨ p.auth = some (Auth.start config.http.oidc url authority) := by
  have hauth := h.auth
  have hhttp := h.http
  cases hno : args.noHttp with
  | true =>
      simp only [bootHttp, hno, if_true] at hhttp
      exact ⟨⟨"", "", none, none, "", none, none, ""⟩, "", .inl (Except.ok.inj hhttp).symm⟩
  | false =>
      simp only [bootAuth, hno, Bool.false_eq_true, if_false] at hauth
      cases hsome : p.auth with
      | some auth =>
          rw [hsome] at hauth
          obtain ⟨url, authority, rfl⟩ := Auth.eq_start_of_new hauth
          exact ⟨url, authority, .inr rfl⟩
      | none =>
          rw [hsome] at hauth
          simp only [Auth.new, henabled, Bool.not_true, Bool.false_eq_true, if_false, bind_eq_ok] at hauth
          obtain ⟨-, -, url, -, hauth⟩ := hauth
          split at hauth
          · simp only [bind_eq_ok] at hauth
            obtain ⟨-, -, hauth⟩ := hauth
            cases hauth
          · cases hauth

theorem commands_are_backed_by_logins (lib : External) (codec : Codec) (args : RunArgs) (setup : Setup)
    {p : Process} {config : Config} (hboot : Process.boot lib codec args setup = .ok (some p))
    (hload : Config.load lib codec.configOfToml p.service.path (setup.file p.service.path) = .ok config)
    (henabled : config.http.oidc.enabled = true) (actions : List ProcessAction) :
    let M := process lib codec p
    (∃ url authority, ∀ before x name args after,
      M.trace actions = before ++ .took x (.called name args) :: after →
        let gate := logins lib config.http.oidc url authority
        let history := gated (Auth.start config.http.oidc url authority) before
        (∃ address, p.http = some address ∧ Guards address (some (gate.run history)) x) ∧
          ∃ opening key login tokens,
            Backed lib config.http.oidc (gate.trace history) (gate.run history) x opening key login tokens) ∧
      ∀ more, (∀ x name args, (M.run actions).pc ≠ .commanding x name args) →
        (∀ e ∈ M.traceFrom (M.run actions) more, e.calls = false) →
          Untouched (M.run actions).service (M.runFrom (M.run actions) more).service := by
  intro M
  obtain ⟨_, hbooted⟩ := Process.boot_spec hboot
  obtain rfl := Except.ok.inj (hload.symm.trans hbooted.loaded)
  have hrun : Orderly (M.run actions) := orderly hbooted.orderly actions
  refine ⟨?_, fun more houtside hquiet => (idling hrun houtside more hquiet).untouched⟩
  obtain ⟨url, authority, hgate⟩ := hbooted.gate henabled
  refine ⟨url, authority, fun before x name args' after hsplit => ?_⟩
  let oidc := config.http.oidc
  refine M.each_event
    (P := fun p' events => p'.http = p.http ∧ (p.http = none ∨ AtGate lib oidc url authority p' events))
    (Q := fun before e => ∀ x name args, e = .took x (.called name args) →
      let gate := logins lib oidc url authority
      let history := gated (Auth.start oidc url authority) before
      (∃ address, p.http = some address ∧ Guards address (some (gate.run history)) x) ∧
        ∃ opening key login tokens,
          Backed lib oidc (gate.trace history) (gate.run history) x opening key login tokens)
    ⟨rfl, hgate⟩ (fun s events action h => ?_) actions hsplit x name args' rfl
  refine ⟨⟨?_, h.2.imp_right fun hat => hat.next action⟩, ?_⟩
  · cases action with
    | main i => exact (turn_mainStep s i).http.trans h.1
    | relay | past | signal => exact h.1
  · rintro before _ after hsplit x name args rfl
    cases action with
    | relay | past | signal => simp [M, process, Process.emit] at hsplit
    | main i =>
        obtain ⟨rfl, address, auth, hhttp, htaken⟩ := (turn_mainStep s i).called_event hsplit
        have hsome : p.http = some address := h.1.symm.trans hhttp
        have hat : AtGate lib oidc url authority s events := h.2.resolve_left (by simp [hsome])
        rw [hat] at htaken
        obtain ⟨hreached, hforward, hserve⟩ := takeUp_called htaken
        obtain ⟨hurl, hvalid⟩ := Bool.and_eq_true_iff.mp hreached
        obtain ⟨hsession, hbacked⟩ := backed_of_forward hforward
        rw [List.append_nil]
        refine ⟨⟨address, hsome, of_decide_eq_true hurl, hvalid, fun a ha => ?_, hserve⟩, hbacked⟩
        rw [← Option.mem_some_iff.mp ha]
        exact hsession

namespace RemoteStatus

def address : Url := ⟨"https", "", none, some "agent.example", "/", none, none, "https://agent.example"⟩

def parsers : External where
  rfc3339 _ := false
  domainToAsciiStrict := some
  urlParse _ := some address
  formUrlencoded _ := [("state", "s"), ("code", "c")]

def oidc : Oidc := { Oidc.default with enabled := true, clientId := "agent", requiredGroup := "admin" }

def file : Config := { Config.default with http := { Http.default with oidc } }

def config : Config := file.resolvePaths "/etc"

def serializers : Codec :=
  ⟨fun _ => some .null, fun _ => none, fun _ => .null, fun _ => .null, fun _ => some file⟩

def boot : Boot := ⟨⟨.v4 0x7f000001#32, 1514⟩, "", 0, 0, 0, 0⟩

def args : RunArgs := ⟨some "/etc/agent.toml", 5, none, false⟩

def setup : Setup := ⟨.ok, .error "", fun _ => .ok "", true, .ok (), .ok (), .ok (), .ok boot, 0⟩

def start : Process where
  http := some ⟨.v4 0x7f000001#32, 1080⟩
  auth := some (Auth.start oidc address "agent.example")
  service := ⟨config, "/etc/agent.toml", some ⟨config, World.start config boot⟩, Status.default, .idle, []⟩
  stopping := false
  interval := 5
  last := 0 - 5
  pc := .top

def request (now : Instant) (key : String) (method : Method) (path cookie : String) : Exchange where
  request := ⟨method, path, [("Host", "agent.example"), ("Cookie", cookie), ("X-Syslog-UI", "1"),
    ("Content-Type", "application/json")], some 4, some "null"⟩
  answers :=
    { entered := now
      checked := now
      stored := now
      wall := now
      key := key
      state := "s"
      nonce := "n"
      pkce := "v"
      discovery := some ⟨200, some .null, some ⟨"https://id/", "https://id/", some "https://id/", "https://id/"⟩⟩
      keySet := some ()
      authorizeUrl := fun _ _ _ _ _ => "https://id/"
      exchange := fun _ _ _ _ =>
        .ok ⟨"token", ⟨none, [("groups", .string "admin")], none, 0, 1000, none, none, "alice"⟩, .ok ""⟩ }

def main (now : Instant) (received : Option Exchange) : ProcessAction :=
  .main ⟨⟨"", .null, now, .ok (), .ok "", .ok (), .ok boot⟩, .ok received⟩

/-- A status line, a login, its callback, and the command. -/
def actions : List ProcessAction :=
  [main 0 none, main 0 none, main 0 none,
    main 1 (some (request 1 "k1" .get "/auth/login" "")), main 1 none, main 1 none,
    main 9 (some (request 9 "k2" .get "/auth/callback?state=s" "__Host-syslog_flow=k1")), main 9 none, main 9 none,
    main 10 none, main 10 (some (request 10 "k3" .post "/api/status" "__Host-syslog_session=k2"))]

end RemoteStatus

/-- A command over a login of the same run. -/
theorem commands_are_backed_by_logins_remotely :
    let M := process RemoteStatus.parsers RemoteStatus.serializers RemoteStatus.start
    ∃ before x name args after,
      M.trace RemoteStatus.actions = before ++ .took x (.called name args) :: after ∧
        ∃ url authority,
          let gate := logins RemoteStatus.parsers RemoteStatus.oidc url authority
          let history := gated (Auth.start RemoteStatus.oidc url authority) before
          ∃ opening key login tokens, Backed RemoteStatus.parsers RemoteStatus.oidc (gate.trace history)
            (gate.run history) x opening key login tokens := by
  intro M
  have hcalls : (M.trace RemoteStatus.actions).any ProcessEvent.calls = true := by decide +kernel
  obtain ⟨e, he, hcalls⟩ := List.any_eq_true.mp hcalls
  obtain ⟨before, after, hsplit⟩ := List.append_of_mem he
  obtain ⟨⟨url, authority, hbacked⟩, -⟩ := @commands_are_backed_by_logins RemoteStatus.parsers
    RemoteStatus.serializers RemoteStatus.args RemoteStatus.setup RemoteStatus.start RemoteStatus.config
    rfl rfl rfl RemoteStatus.actions
  cases e with
  | reported | answered => cases hcalls
  | took x taken =>
      cases taken with
      | answered => cases hcalls
      | called name args =>
          exact ⟨before, x, name, args, after, hsplit, url, authority, (hbacked before x name args after hsplit).2⟩

end SyslogDtlsAgent
