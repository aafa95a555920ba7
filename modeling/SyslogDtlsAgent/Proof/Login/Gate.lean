import SyslogDtlsAgent.Cli.Auth
import SyslogDtlsAgent.Library.Scan

/-!
# What one request does

`gate` answers ten routes and each handler branches again. `Passage` lists what a call can come to,
with everything a later proof needs about it: the route, the checks passed, the next state and the
answer. Every invariant of logins is a case analysis over it.
-/

namespace SyslogDtlsAgent

open Library

namespace Auth

/-- The parts of an `Auth` that no request changes. -/
def settings (auth : Auth) : Oidc × Option String × String × String × Bool :=
  (auth.config, auth.secret, auth.origin, auth.authority, auth.secure)

theorem config_eq {a b : Auth} (h : a.settings = b.settings) : a.config = b.config :=
  congrArg Prod.fst h

theorem prune_flows {auth : Auth} {now : Instant} {key : String} {flow : Flow} :
    (auth.prune now).flows.lookup key = some flow ↔
      auth.flows.lookup key = some flow ∧ now < flow.expires := by
  rw [prune, AList.lookup_retain_eq_some, decide_eq_true_eq]

theorem prune_sessions {auth : Auth} {now : Instant} {key : String} {session : Session} :
    (auth.prune now).sessions.lookup key = some session ↔
      auth.sessions.lookup key = some session ∧ now < session.expires := by
  rw [prune, AList.lookup_retain_eq_some, decide_eq_true_eq]

theorem prune_logouts {auth : Auth} {now : Instant} {key : String} {pending : PendingLogout} :
    (auth.prune now).logouts.lookup key = some pending ↔
      auth.logouts.lookup key = some pending ∧ now < pending.expires := by
  rw [prune, AList.lookup_retain_eq_some, decide_eq_true_eq]

/-- The entry a callback stores for a login. -/
def sessionOf (login : Login) (stored : Instant) : Session :=
  ⟨stored + login.lifetime, login.username, login.providerLogout⟩

/-! ### Bodies -/

/-- The page `login_error` makes of a message. -/
def errorPage (message : String) : Body := (loginError 200 message).body

/-- The bodies that hold nothing of a request or of the state. -/
def notices : List Body :=
  [.text "", .text "Forbidden", .text "Too many pending logins. Try again later.",
    .text "document.getElementById('provider-logout').submit();",
    .json (.object [("error", .string "Sign in required")]),
    errorPage "Identity provider is unavailable or misconfigured.",
    errorPage "Session limit reached. Try again later.",
    errorPage "Login denied. Check your group membership and the provider configuration, then try again.",
    errorPage "You are signed out of this agent. The provider logout request has expired or was already used.",
    errorPage "You are signed out of this agent."]

def redirectTo (path : String) : Body := .json (.object [("redirect", .string path)])

/-- The answers to a logout. -/
def redirects : List Body := [redirectTo "/auth/signed-out", redirectTo "/auth/end-session"]

def showing (username : String) : Body := .json (.object [("username", .string username)])

/-- The page that posts a logout to a provider. -/
def logoutPage (auth : Auth) (provider : ProviderLogout) : Body :=
  .logoutForm provider.endpoint provider.idToken auth.config.clientId (auth.origin ++ "/auth/signed-out")

/-- An answer with one of the notices, which shows nothing of a session. -/
def Plain (response : Response) : Prop := response.body ∈ notices

theorem plain_at (n : Nat) {response : Response} (h : notices[n]? = some response.body) : Plain response :=
  List.mem_of_getElem? h

theorem text_or_error : ∀ body ∈ notices,
    (∃ text, body = .text text) ∨ ∃ error, body = .json (.object [("error", .string error)]) := by
  simp only [notices, List.forall_mem_cons]
  simp [errorPage, loginError, respond, respondWith]

/-- What a call of `gate` can come to, from a state already pruned. -/
inductive Passage (lib : External) (auth : Auth) (x : Exchange) : Auth → Outcome → Prop where
  | login {url : String} {flow : Flow} (hmethod : x.request.method = .get)
      (hpath : x.request.path = "/auth/login") (hroom : auth.flows.size < 64)
      (hbegin : beginLogin lib auth x.answers = .ok (url, x.answers.key, flow)) :
      Passage lib auth x
        { auth with flows := (auth.flows.forget (auth.presented "flow" x.request)).insert x.answers.key flow }
        (.reply (respondWith 303 "text/plain" (.text "")
          [("Location", url), ("Set-Cookie", auth.cookie "flow" x.answers.key 300)]))
  | noLogin {response : Response} (hmethod : x.request.method = .get)
      (hpath : x.request.path = "/auth/login") (hplain : Plain response) (hcode : response.code = 503) :
      Passage lib auth x auth (.reply response)
  | callback {key : String} {flow : Flow} {login : Login} (hmethod : x.request.method = .get)
      (hpath : x.request.path = "/auth/callback") (hkey : auth.presented "flow" x.request = some key)
      (hflow : auth.flows.lookup key = some flow)
      (hlogin : finishLogin lib auth x.request.url flow x.answers = .ok login)
      (hroom : auth.sessions.size < 128) :
      Passage lib auth x
        { auth with
          flows := auth.flows.forget (auth.presented "flow" x.request)
          sessions := (auth.sessions.forget (auth.presented "session" x.request)).insert x.answers.key
            (sessionOf login x.answers.stored) }
        (.reply (respondWith 303 "text/plain" (.text "")
          [("Location", "/"), ("Set-Cookie", auth.cookie "session" x.answers.key login.lifetime),
            ("Set-Cookie", auth.cookie "flow" "" 0)]))
  | denied {response : Response} (hmethod : x.request.method = .get)
      (hpath : x.request.path = "/auth/callback") (hplain : Plain response)
      (hcode : response.code = 503 ∨ response.code = 403) :
      Passage lib auth x { auth with flows := auth.flows.forget (auth.presented "flow" x.request) }
        (.reply response)
  | noHandoff {response : Response} (hmethod : x.request.method = .get)
      (hpath : x.request.path = "/auth/end-session") (hplain : Plain response)
      (habsent : ∀ key ∈ auth.presented "logout" x.request, key ∉ auth.logouts) :
      Passage lib auth x { auth with logouts := auth.logouts.forget (auth.presented "logout" x.request) }
        (.reply response)
  | handoff {key : String} {pending : PendingLogout} {headers : List (String × String)}
      (hmethod : x.request.method = .get) (hpath : x.request.path = "/auth/end-session")
      (hkey : auth.presented "logout" x.request = some key)
      (hpending : auth.logouts.lookup key = some pending)
      (hendpoint : (httpUrl lib pending.provider.endpoint).isOk) :
      Passage lib auth x { auth with logouts := auth.logouts.forget (auth.presented "logout" x.request) }
        (.reply (respondWith 200 "text/html; charset=utf-8" (auth.logoutPage pending.provider) headers))
  | badEndpoint {key : String} {pending : PendingLogout} (hmethod : x.request.method = .get)
      (hpath : x.request.path = "/auth/end-session") (hkey : auth.presented "logout" x.request = some key)
      (hpending : auth.logouts.lookup key = some pending)
      (hendpoint : ¬(httpUrl lib pending.provider.endpoint).isOk) :
      Passage lib auth x { auth with logouts := auth.logouts.forget (auth.presented "logout" x.request) }
        .panic
  | signOut {key : String} {session : Session} (hmethod : x.request.method = .post)
      (hpath : x.request.path = "/auth/logout") (hheader : x.request.header "X-Syslog-UI" = some "1")
      (hkey : auth.presented "session" x.request = some key)
      (hlive : auth.sessions.lookup key = some session) :
      Passage lib auth x { auth with sessions := auth.sessions.erase key }
        (.reply (respondWith 200 "application/json"
          (redirectTo "/auth/signed-out") [("Set-Cookie", auth.cookie "session" "" 0)]))
  | signOutAtProvider {key : String} {session : Session} {provider : ProviderLogout}
      (hmethod : x.request.method = .post) (hpath : x.request.path = "/auth/logout")
      (hheader : x.request.header "X-Syslog-UI" = some "1")
      (hkey : auth.presented "session" x.request = some key)
      (hlive : auth.sessions.lookup key = some session) (hprovider : session.providerLogout = some provider)
      (hroom : auth.logouts.size < 128) :
      Passage lib auth x
        { auth with
          sessions := auth.sessions.erase key
          logouts := (auth.logouts.forget (auth.presented "logout" x.request)).insert x.answers.key
            ⟨x.answers.stored + 60, provider⟩ }
        (.reply (respondWith 200 "application/json"
          (redirectTo "/auth/end-session")
          [("Set-Cookie", auth.cookie "session" "" 0),
            ("Set-Cookie", auth.cookie "logout" x.answers.key 60)]))
  /-- A page that needs no session, or a refusal. -/
  | answered {response : Response} (hplain : Plain response)
      (hlogin : ¬(x.request.method = .get ∧ x.request.path = "/auth/login"))
      (hcallback : ¬(x.request.method = .get ∧ x.request.path = "/auth/callback"))
      (hlogout : x.request.path = "/auth/logout" → response.code ≠ 200) :
      Passage lib auth x auth (.reply response)
  | identity {key : String} {session : Session} (hmethod : x.request.method = .get)
      (hpath : x.request.path = "/auth/session") (hkey : auth.presented "session" x.request = some key)
      (hlive : auth.sessions.lookup key = some session) :
      Passage lib auth x auth (.reply (respond 200 "application/json" (showing session.username)))
  | forward {key : String} {session : Session}
      (hlogin : ¬(x.request.method = .get ∧ x.request.path = "/auth/login"))
      (hcallback : ¬(x.request.method = .get ∧ x.request.path = "/auth/callback"))
      (hkey : auth.presented "session" x.request = some key)
      (hlive : auth.sessions.lookup key = some session) :
      Passage lib auth x auth .forward

variable {lib : External} {auth : Auth} {x : Exchange}

theorem Passage.settings {after : Auth} {outcome : Outcome} (h : Passage lib auth x after outcome) :
    after.settings = auth.settings := by
  cases h <;> rfl

/-! ### The handlers -/

/-- What a login that can begin leaves in its flow. -/
theorem beginLogin_spec {answers : Answers} {url key : String} {flow : Flow}
    (h : beginLogin lib auth answers = .ok (url, key, flow)) :
    key = answers.key ∧ flow.state = answers.state ∧ flow.expires = answers.stored + 300 ∧
      ∀ endpoint ∈ flow.logoutEndpoint, (httpUrl lib endpoint).isOk := by
  simp only [beginLogin, bind_eq_ok, reject_eq_ok, okOr_eq_ok, exists_const] at h
  obtain ⟨response, -, -, document, -, metadata, -, issuer, -, -, -, -, -, -, tokenUrl, -, -, -, -, h⟩ := h
  cases h
  exact ⟨rfl, rfl, rfl, fun endpoint hendpoint => (Option.filter_eq_some_iff.mp hendpoint).2⟩

theorem login_passage (hmethod : x.request.method = .get) (hpath : x.request.path = "/auth/login") :
    Passage lib auth x (auth.login lib x).1 (.reply (auth.login lib x).2) := by
  unfold Auth.login
  split
  · exact .noLogin hmethod hpath (plain_at 2 rfl) rfl
  · rename_i hroom
    split
    · rename_i url key flow hbegin
      obtain ⟨rfl, -⟩ := beginLogin_spec hbegin
      exact .login hmethod hpath (by omega) hbegin
    · exact .noLogin hmethod hpath (plain_at 5 rfl) rfl

theorem callback_passage (hmethod : x.request.method = .get) (hpath : x.request.path = "/auth/callback") :
    Passage lib auth x (auth.callback lib x).1 (.reply (auth.callback lib x).2) := by
  unfold Auth.callback
  simp only
  split
  · rename_i login hlogin
    split at hlogin
    · cases hlogin
    · rename_i flow hflow
      obtain ⟨key, hkey, hflow⟩ := Option.bind_eq_some_iff.mp hflow
      split
      · rename_i hroom
        exact .callback hmethod hpath hkey hflow hlogin hroom
      · exact .denied hmethod hpath (plain_at 6 rfl) (.inl rfl)
  · exact .denied hmethod hpath (plain_at 7 rfl) (.inr rfl)

theorem endSession_passage (hmethod : x.request.method = .get)
    (hpath : x.request.path = "/auth/end-session") :
    Passage lib auth x (auth.endSession lib x).1 (auth.endSession lib x).2 := by
  unfold Auth.endSession
  simp only
  split
  · rename_i hnone
    refine .noHandoff hmethod hpath (plain_at 8 rfl) fun key hkey => ?_
    rw [Option.mem_def.mp hkey, Option.bind_some] at hnone
    exact AList.lookup_eq_none.mp hnone
  · rename_i pending hpending
    obtain ⟨key, hkey, hpending⟩ := Option.bind_eq_some_iff.mp hpending
    split
    · rename_i hbad
      exact .badEndpoint hmethod hpath hkey hpending (by simp [hbad, Except.isOk, Except.toBool])
    · rename_i url hurl
      exact .handoff hmethod hpath hkey hpending (by simp [hurl, Except.isOk, Except.toBool])

theorem signOut_passage (hmethod : x.request.method = .post) (hpath : x.request.path = "/auth/logout")
    (hheader : x.request.header "X-Syslog-UI" = some "1") {key : String}
    (hkey : auth.presented "session" x.request = some key) (hlive : key ∈ auth.sessions) :
    Passage lib auth x (auth.signOut x).1 (auth.signOut x).2 := by
  obtain ⟨session, hsession⟩ := AList.mem_iff_lookup.mp hlive
  simp only [Auth.signOut, hkey, hsession]
  split
  · rename_i provider hprovider
    obtain ⟨hprovider, hroom⟩ := Option.filter_eq_some_iff.mp hprovider
    exact .signOutAtProvider hmethod hpath hheader hkey hsession hprovider (of_decide_eq_true hroom)
  · exact .signOut hmethod hpath hheader hkey hsession

theorem authenticated_iff : ((auth.presented "session" x.request).any fun key => key ∈ auth.sessions) = true ↔
    ∃ key session, auth.presented "session" x.request = some key ∧
      auth.sessions.lookup key = some session := by
  simp only [Option.any_eq_true, decide_eq_true_eq, AList.mem_iff_lookup]
  constructor
  · rintro ⟨key, hkey, session, hsession⟩
    exact ⟨key, session, hkey, hsession⟩
  · rintro ⟨key, session, hkey, hsession⟩
    exact ⟨key, hkey, session, hsession⟩

/-- Every call of `gate` is one of the passages. -/
theorem gate_passage (lib : External) (auth : Auth) (x : Exchange) :
    Passage lib (auth.prune x.answers.entered) x (auth.gate lib x).1 (auth.gate lib x).2 := by
  unfold gate
  simp only
  split
  · rename_i h
    exact login_passage h.1 h.2
  rename_i hlogin
  split
  · rename_i h
    exact callback_passage h.1 h.2
  rename_i hcallback
  split
  · rename_i h
    exact endSession_passage h.1 h.2
  split
  · rename_i h
    exact .answered (plain_at 3 rfl) hlogin hcallback (by simp [h.2])
  split
  · rename_i hroute
    split
    · exact .answered (plain_at 1 rfl) hlogin hcallback fun _ => by simp [respond, respondWith]
    · rename_i hchecks
      push Not at hchecks
      obtain ⟨hheader, hauthenticated⟩ := hchecks
      obtain ⟨key, session, hkey, hsession⟩ := authenticated_iff.mp (by simpa using hauthenticated)
      exact signOut_passage hroute.2 hroute.1 hheader hkey (AList.mem_iff_lookup.mpr ⟨session, hsession⟩)
  split
  · rename_i hroute
    exact .answered (plain_at 9 rfl) hlogin hcallback (by simp [hroute.2])
  split
  · split
    · exact .answered (plain_at 4 rfl) hlogin hcallback fun _ => by simp [respond, respondWith]
    · exact .answered (plain_at 0 rfl) hlogin hcallback fun _ => by simp [respondWith]
  rename_i hauthenticated
  obtain ⟨key, session, hkey, hsession⟩ := authenticated_iff.mp (by simpa using hauthenticated)
  split
  · rename_i hroute
    rw [hkey, Option.bind_some, hsession]
    exact .identity hroute.2 hroute.1 hkey hsession
  · exact .forward hlogin hcallback hkey hsession

/-! ### What an answer shows -/

/-- What the body of an answer can be. Only two hold more than fixed texts: the name of the live session of the
request, and the page of a pending logout. -/
inductive Answer (auth : Auth) (x : Exchange) : Body → Prop where
  | notice {body : Body} (hnotice : body ∈ notices) : Answer auth x body
  | redirect {body : Body} (hredirect : body ∈ redirects) : Answer auth x body
  | name {key : String} {session : Session} (hroute : x.request.method = .get ∧ x.request.path = "/auth/session")
      (hkey : auth.presented "session" x.request = some key) (hlive : auth.sessions.lookup key = some session)
      (hexpires : x.answers.entered < session.expires) : Answer auth x (showing session.username)
  | page {key : String} {pending : PendingLogout}
      (hroute : x.request.method = .get ∧ x.request.path = "/auth/end-session")
      (hkey : auth.presented "logout" x.request = some key) (hpending : auth.logouts.lookup key = some pending)
      (hexpires : x.answers.entered < pending.expires) : Answer auth x (auth.logoutPage pending.provider)

theorem Passage.answer {after : Auth} {response : Response}
    (h : Passage lib (auth.prune x.answers.entered) x after (.reply response)) : Answer auth x response.body := by
  cases h with
  | noLogin hmethod hpath hplain | denied hmethod hpath hplain | noHandoff hmethod hpath hplain
  | answered hplain => exact .notice hplain
  | login | callback => exact .notice (plain_at 0 rfl)
  | signOut => exact .redirect List.mem_cons_self
  | signOutAtProvider => exact .redirect (List.mem_cons_of_mem _ List.mem_cons_self)
  | identity hmethod hpath hkey hlive =>
      obtain ⟨hlive, hexpires⟩ := prune_sessions.mp hlive
      exact .name ⟨hmethod, hpath⟩ hkey hlive hexpires
  | handoff hmethod hpath hkey hpending =>
      obtain ⟨hpending, hexpires⟩ := prune_logouts.mp hpending
      exact .page ⟨hmethod, hpath⟩ hkey hpending hexpires

theorem gate_answer {response : Response} (h : (auth.gate lib x).2 = .reply response) :
    Answer auth x response.body := by
  have hpassage := gate_passage lib auth x
  rw [h] at hpassage
  exact hpassage.answer

end Auth

end SyslogDtlsAgent
