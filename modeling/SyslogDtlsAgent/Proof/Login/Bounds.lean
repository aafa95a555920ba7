import SyslogDtlsAgent.Proof.Login.Runs
import SyslogDtlsAgent.Proof.Login.Token

/-!
# The maps of `Auth` stay small and well formed

Each map has a limit that every insertion checks, and a logout endpoint is checked once, when a login
begins, and then copied from the flow to the session to the pending logout. So the `unwrap` on the
endpoint in `end_session` cannot fail, and neither can those on the session of a request, which follow
a lookup of the same key.
-/

namespace SyslogDtlsAgent

open Library

variable {lib : External}

def Flow.Usable (lib : External) (flow : Flow) : Prop :=
  ∀ endpoint ∈ flow.logoutEndpoint, (httpUrl lib endpoint).isOk

def Session.Usable (lib : External) (session : Session) : Prop :=
  ∀ provider ∈ session.providerLogout, (httpUrl lib provider.endpoint).isOk

def PendingLogout.Usable (lib : External) (pending : PendingLogout) : Prop :=
  (httpUrl lib pending.provider.endpoint).isOk

namespace Auth

structure Sound (lib : External) (auth : Auth) : Prop where
  flows : auth.flows.Within 64 (Flow.Usable lib)
  sessions : auth.sessions.Within 128 (Session.Usable lib)
  logouts : auth.logouts.Within 128 (PendingLogout.Usable lib)

theorem Sound.start {config : Oidc} {url : Url} {authority : String} :
    Sound lib (Auth.start config url authority) :=
  ⟨.empty, .empty, .empty⟩

theorem Sound.prune {auth : Auth} (h : Sound lib auth) (now : Instant) : Sound lib (auth.prune now) where
  flows := h.flows.retain fun _ flow => now < flow.expires
  sessions := h.sessions.retain fun _ session => now < session.expires
  logouts := h.logouts.retain fun _ logout => now < logout.expires

/-- The session of a login keeps the endpoint of its flow. -/
theorem usable_sessionOf {auth : Auth} {path : String} {flow : Flow} {answers : Answers} {login : Login}
    (hlogin : auth.finishLogin lib path flow answers = .ok login) (hflow : flow.Usable lib)
    (stored : Instant) : (sessionOf login stored).Usable lib := by
  intro provider hprovider
  obtain ⟨-, -, -, -, tokens, -, -, -, haccept⟩ := finishLogin_spec hlogin
  obtain ⟨-, -, -, -, hcopied⟩ := acceptTokens_spec haccept
  exact hflow _ (hcopied provider hprovider).1

/-- No passage breaks the maps or panics. -/
theorem Passage.sound {auth after : Auth} {x : Exchange} {outcome : Outcome}
    (h : Passage lib auth x after outcome) (hsound : Sound lib auth) :
    Sound lib after ∧ outcome ≠ .panic := by
  obtain ⟨hflows, hsessions, hlogouts⟩ := id hsound
  cases h with
  | login hmethod hpath hroom hbegin =>
      have husable : Flow.Usable lib _ := (beginLogin_spec hbegin).2.2.2
      exact ⟨⟨hflows.replace hroom _ _ husable, hsessions, hlogouts⟩, by simp⟩
  | callback hmethod hpath hkey hflow hlogin hroom =>
      have husable := usable_sessionOf hlogin (hflows.values _ _ hflow) x.answers.stored
      exact ⟨⟨hflows.forget _, hsessions.replace hroom _ _ husable, hlogouts⟩, by simp⟩
  | denied => exact ⟨⟨hflows.forget _, hsessions, hlogouts⟩, by simp⟩
  | noHandoff | handoff => exact ⟨⟨hflows, hsessions, hlogouts.forget _⟩, by simp⟩
  | badEndpoint hmethod hpath hkey hpending hendpoint =>
      exact absurd (hlogouts.values _ _ hpending) hendpoint
  | signOut => exact ⟨⟨hflows, hsessions.erase _, hlogouts⟩, by simp⟩
  | signOutAtProvider hmethod hpath hheader hkey hlive hprovider hroom =>
      have husable := hsessions.values _ _ hlive _ hprovider
      exact ⟨⟨hflows, hsessions.erase _, hlogouts.replace hroom _ _ husable⟩, by simp⟩
  | noLogin | answered | identity | forward => exact ⟨hsound, by simp⟩

theorem Sound.gate {auth : Auth} (h : Sound lib auth) (x : Exchange) :
    Sound lib (auth.gate lib x).1 ∧ (auth.gate lib x).2 ≠ .panic :=
  (gate_passage lib auth x).sound (h.prune x.answers.entered)

end Auth

variable {config : Oidc} {url : Url} {authority : String}

theorem logins_sound (history : List Exchange) :
    Auth.Sound lib ((logins lib config url authority).run history) :=
  (logins lib config url authority).invariant Auth.Sound.start (fun _ x h => (h.gate x).1) history

/-- In every run the maps stay within their limits, every logout endpoint in them passes `http_url`,
and no request makes the gate panic. -/
theorem gate_never_panics (lib : External) (config : Oidc) (url : Url) (authority : String)
    (history : List Exchange) (x : Exchange) :
    let auth := (logins lib config url authority).run history
    auth.flows.size ≤ 64 ∧ auth.sessions.size ≤ 128 ∧ auth.logouts.size ≤ 128 ∧
      (∀ key flow, auth.flows.lookup key = some flow →
        ∀ endpoint ∈ flow.logoutEndpoint, (httpUrl lib endpoint).isOk) ∧
      (∀ key session, auth.sessions.lookup key = some session →
        ∀ provider ∈ session.providerLogout, (httpUrl lib provider.endpoint).isOk) ∧
      (∀ key pending, auth.logouts.lookup key = some pending →
        (httpUrl lib pending.provider.endpoint).isOk) ∧
      (auth.gate lib x).2 ≠ .panic := by
  intro auth
  have h : Auth.Sound lib auth := logins_sound history
  exact ⟨h.flows.size, h.sessions.size, h.logouts.size, h.flows.values, h.sessions.values,
    h.logouts.values, (h.gate x).2⟩

end SyslogDtlsAgent
