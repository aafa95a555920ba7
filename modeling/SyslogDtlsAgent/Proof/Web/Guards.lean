import SyslogDtlsAgent.Cli.Web
import SyslogDtlsAgent.Proof.Login.Sessions

/-!
# The guards of the management interface

A command runs behind a URL bound, the host and origin checks, the gate, and the checks of `serve` on
method, path, headers and length. `serve` and `handle` each have one lemma that says what a call or an
asset implies; the theorem puts them together.
-/

namespace SyslogDtlsAgent

/-- The request carries the key of a session that has not expired when it is taken up. -/
def HasSession (auth : Auth) (x : Exchange) : Prop :=
  ∃ key session, x.request.cookies (auth.cookieName "session") = [key] ∧
    auth.sessions.lookup key = some session ∧ x.answers.entered < session.expires

/-- What `serve` asks of a request before it calls a command. -/
structure ServeGuards (request : Request) : Prop where
  method : request.method = .post
  path : Text.startsWith request.url "/api/" = true
  custom : request.header "X-Syslog-UI" = some "1"
  contentType : request.header "Content-Type" = some "application/json"
  length : ∃ n ≤ 65536, request.bodyLength = some n

/-- All that stands before a command. -/
structure Guards (address : SocketAddr) (auth : Option Auth) (x : Exchange) : Prop where
  url : Text.len x.request.url ≤ 8192
  origin : validOrigin address auth x.request = true
  session : ∀ a ∈ auth, HasSession a x
  serve : ServeGuards x.request

variable (lib : External) (codec : Codec) (agent : Agent) (effects : Effects)

/-- `serve` either calls the command of the path, behind its guards, or leaves the agent alone. -/
theorem serve_calls (auth : Option Auth) (request : Request) :
    (serve lib codec agent auth request effects).called = none ∧
        (serve lib codec agent auth request effects).agent = agent ∨
      ServeGuards request ∧ ∃ name args,
        (serve lib codec agent auth request effects).called = some (name, args) ∧
        (serve lib codec agent auth request effects).agent = (agent.command lib codec name args effects).1 := by
  unfold serve
  simp only
  split
  · split <;> exact .inl ⟨rfl, rfl⟩
  split
  · exact .inl ⟨rfl, rfl⟩
  rename_i hroute
  split
  · exact .inl ⟨rfl, rfl⟩
  rename_i hheaders
  split
  · exact .inl ⟨rfl, rfl⟩
  rename_i hlength
  split
  · exact .inl ⟨rfl, rfl⟩
  split
  · exact .inl ⟨rfl, rfl⟩
  push Not at hroute hheaders
  refine .inr ⟨⟨hroute.1, by simpa using hroute.2, hheaders.1, hheaders.2, ?_⟩, _, _, rfl, rfl⟩
  cases hn : request.bodyLength with
  | none => simp [hn] at hlength
  | some n => exact ⟨n, by simpa [hn] using hlength, rfl⟩

/-- The answers of the gate hold no file of the interface. -/
theorem Auth.gate_no_asset {lib : External} {auth : Auth} {x : Exchange} {response : Response} {asset : Asset}
    (h : (auth.gate lib x).2 = .reply response) : response.body ≠ .asset asset := by
  have hanswer := Auth.gate_answer h
  generalize response.body = body at hanswer
  cases hanswer with
  | notice hnotice =>
      rcases Auth.text_or_error _ hnotice with ⟨text, rfl⟩ | ⟨error, rfl⟩ <;>
      · intro h
        cases h
  | redirect hredirect =>
      intro hasset
      simp [hasset, Auth.redirects, Auth.redirectTo] at hredirect
  | name | page =>
      intro h
      cases h

/-- Past the origin check and the gate, `handle` is `serve`; before them it calls and serves nothing. -/
theorem handle_cases (address : SocketAddr) (auth : Option Auth) (x : Exchange) :
    ((handle lib codec address agent auth x effects).called = none ∧
        (handle lib codec address agent auth x effects).agent = agent ∧
        ∀ response asset, (handle lib codec address agent auth x effects).outcome = .reply response →
          response.body ≠ .asset asset) ∨
      Text.len x.request.url ≤ 8192 ∧ validOrigin address auth x.request = true ∧
        (∀ a ∈ auth, HasSession a x) ∧
        ∃ auth', handle lib codec address agent auth x effects =
          serve lib codec agent auth' x.request effects := by
  unfold handle
  simp only
  split
  · exact .inl ⟨rfl, rfl, fun response asset h => by cases h; exact nofun⟩
  rename_i hurl
  split
  · exact .inl ⟨rfl, rfl, fun response asset h => by cases h; exact nofun⟩
  rename_i horigin
  have horigin : validOrigin address auth x.request = true := by simpa using horigin
  cases auth with
  | none => exact .inr ⟨by omega, horigin, nofun, _, rfl⟩
  | some auth =>
      simp only
      split
      · rename_i after hgate
        have hforward : (auth.gate lib x).2 = .forward := by rw [hgate]
        obtain ⟨key, session, hkey, hlive, hexpires⟩ := Auth.gate_forward hforward
        refine .inr ⟨by omega, horigin, fun a ha => ?_, _, rfl⟩
        obtain rfl : auth = a := Option.mem_some_iff.mp ha
        exact ⟨key, session, (Request.cookieValue_eq_some.mp hkey).1, hlive, hexpires⟩
      · rename_i after outcome hnot hgate
        refine .inl ⟨rfl, rfl, fun response asset h => ?_⟩
        have hreply : (auth.gate lib x).2 = .reply response := by rw [hgate]; exact h
        exact Auth.gate_no_asset hreply

theorem commands_run_behind_every_guard (lib : External) (codec : Codec) (address : SocketAddr)
    (agent : Agent) (auth : Option Auth) (x : Exchange) (effects : Effects) :
    let handled := handle lib codec address agent auth x effects
    (∀ name args, handled.called = some (name, args) → Guards address auth x) ∧
      (handled.called = none → handled.agent = agent) ∧
      ∀ a ∈ auth, ∀ response asset, handled.outcome = .reply response → response.body = .asset asset →
        HasSession a x := by
  intro handled
  rcases handle_cases lib codec agent effects address auth x with
    ⟨hcalled, hagent, hassets⟩ | ⟨hurl, horigin, hsession, auth', hserve⟩
  · refine ⟨fun name args h => ?_, fun _ => hagent, fun a _ response asset h hbody => ?_⟩
    · cases hcalled.symm.trans h
    · exact absurd hbody (hassets response asset h)
  · refine ⟨fun name args h => ?_, fun h => ?_, fun a ha _ _ _ _ => hsession a ha⟩
    · rcases serve_calls lib codec agent effects auth' x.request with ⟨hnone, -⟩ | ⟨hguards, -⟩
      · rw [← hserve] at hnone
        cases hnone.symm.trans h
      · exact ⟨hurl, horigin, hsession, hguards⟩
    · rcases serve_calls lib codec agent effects auth' x.request with ⟨-, hagent⟩ | ⟨-, name, args, hsome, -⟩
      · rw [← hserve] at hagent
        exact hagent
      · rw [← hserve] at hsome
        cases h.symm.trans hsome

end SyslogDtlsAgent
