import SyslogDtlsAgent.Proof.Login.Runs
import SyslogDtlsAgent.Proof.Login.Token

/-!
# Sessions

A live session goes back to the callback that opened it, and since then no request that presents its
cookie has signed out or signed in again. The gate lets a request through only with such a session, so
every admission has that history.
-/

namespace SyslogDtlsAgent

open Library

variable {lib : External}

namespace Turn

/-- A callback that opens a session: it presents the cookie of a pending flow, `finish_login` succeeds,
and the answer issues the key. -/
structure Opens (lib : External) (t : Turn) (key : String) (login : Login) : Prop where
  answered : t.Answered .get "/auth/callback" 303
  finished : ∃ flowKey flow, t.presents "flow" = some flowKey ∧ t.before.flows.lookup flowKey = some flow ∧
    t.before.finishLogin lib t.exchange.request.url flow t.exchange.answers = .ok login
  issued : t.SetsCookie "session" key login.lifetime
  lifetime : 1 ≤ login.lifetime ∧ login.lifetime ≤ 3600

/-- A completed logout or a successful callback by whoever presents the session key. -/
def Revokes (t : Turn) (key : String) : Prop :=
  t.presents "session" = some key ∧
    (t.Answered .post "/auth/logout" 200 ∨ t.Answered .get "/auth/callback" 303)

theorem Opens.of_callback {before after : Auth} {x : Exchange} {flowKey : String} {flow : Flow}
    {login : Login} (hmethod : x.request.method = .get) (hpath : x.request.path = "/auth/callback")
    (hkey : before.presented "flow" x.request = some flowKey)
    (hflow : (before.prune x.answers.entered).flows.lookup flowKey = some flow)
    (hlogin : before.finishLogin lib x.request.url flow x.answers = .ok login) :
    Opens lib ⟨before, x, after, .reply (respondWith 303 "text/plain" (.text "")
      [("Location", "/"), ("Set-Cookie", before.cookie "session" x.answers.key login.lifetime),
        ("Set-Cookie", before.cookie "flow" "" 0)])⟩ x.answers.key login where
  answered := ⟨hmethod, hpath, _, rfl, rfl⟩
  finished := ⟨flowKey, flow, hkey, (Auth.prune_flows.mp hflow).1, hlogin⟩
  issued := ⟨_, rfl, List.mem_append_right _ (List.mem_cons_of_mem _ List.mem_cons_self)⟩
  lifetime := Auth.finishLogin_lifetime hlogin

/-- What stands behind a session: the flow of the browser, the code of the query, and the tokens the provider
gave for it to the client of the flow. -/
theorem Opens.redeemed {t : Turn} {key : String} {login : Login} (h : t.Opens lib key login) :
    ∃ flowKey flow path query code tokens, t.presents "flow" = some flowKey ∧
      t.before.flows.lookup flowKey = some flow ∧ t.exchange.answers.checked < flow.expires ∧
      Text.splitOnce t.exchange.request.url '?' = some (path, query) ∧
      Expected flow (lib.formUrlencoded query) code ∧
      t.exchange.answers.exchange flow.client code flow.nonce flow.pkce = .ok tokens ∧
      Auth.acceptTokens t.before.config flow tokens t.exchange.answers.wall = .ok login := by
  obtain ⟨flowKey, flow, hpresents, hflow, hfinished⟩ := h.finished
  obtain ⟨hchecked, path, query, code, tokens, hquery, hexpected, htokens, haccept⟩ :=
    Auth.finishLogin_spec hfinished
  exact ⟨flowKey, flow, path, query, code, tokens, hpresents, hflow, hchecked, hquery, hexpected, htokens, haccept⟩

/-- A callback gets tokens for its flow and the code of its query, and they stand for a login. -/
def RedeemsFor (lib : External) (t : Turn) (tokens : TokenResponse) (login : Login) : Prop :=
  ∃ flowKey flow path query code, t.presents "flow" = some flowKey ∧ t.before.flows.lookup flowKey = some flow ∧
    Text.splitOnce t.exchange.request.url '?' = some (path, query) ∧
    Expected flow (lib.formUrlencoded query) code ∧
    t.exchange.answers.exchange flow.client code flow.nonce flow.pkce = .ok tokens ∧
    Auth.acceptTokens t.before.config flow tokens t.exchange.answers.wall = .ok login

theorem Opens.named {t : Turn} {key : String} {login : Login} (h : t.Opens lib key login) :
    ∃ tokens, t.RedeemsFor lib tokens login ∧ login.username = tokens.claims.shownName := by
  obtain ⟨flowKey, flow, path, query, code, tokens, hpresents, hflow, -, hquery, hexpected, htokens, haccept⟩ :=
    h.redeemed
  obtain ⟨-, -, -, husername, -⟩ := Auth.acceptTokens_spec haccept
  exact ⟨tokens, ⟨flowKey, flow, path, query, code, hpresents, hflow, hquery, hexpected, htokens, haccept⟩,
    husername⟩

/-- A callback answered with 303 is one that opens a session. -/
theorem Real.opens_of_answered {t : Turn} (h : t.Real lib)
    (hanswered : t.Answered .get "/auth/callback" 303) : ∃ key login, t.Opens lib key login := by
  obtain ⟨before, x, after, outcome⟩ := t
  change Auth.Passage lib (before.prune x.answers.entered) x after outcome at h
  obtain ⟨hget, hcallback, response, hresponse, hcode⟩ := id hanswered
  change x.request.path = _ at hcallback
  change outcome = _ at hresponse
  cases h with
  | callback hmethod hpath hkey hflow hlogin hroom =>
      exact ⟨x.answers.key, _, .of_callback hmethod hpath hkey hflow hlogin⟩
  | denied hmethod hpath hplain hcode' =>
      cases hresponse
      omega
  | answered hplain hlogin hnot => exact absurd ⟨hget, hcallback⟩ hnot
  | forward hlogin hnot => cases hresponse
  | badEndpoint => cases hresponse
  | login hmethod hpath | noLogin hmethod hpath | noHandoff hmethod hpath | handoff hmethod hpath
  | identity hmethod hpath | signOut hmethod hpath | signOutAtProvider hmethod hpath =>
      rw [hpath] at hcallback
      exact absurd hcallback (by decide)

/-- What a turn does to sessions: each one it leaves was opened by it, or was there and not revoked. -/
theorem Real.sessions {t : Turn} (h : t.Real lib) {key : String} {session : Session}
    (hlive : t.after.sessions.lookup key = some session) :
    (t.exchange.answers.key = key ∧
      ∃ login, t.Opens lib key login ∧ session = Auth.sessionOf login t.exchange.answers.stored) ∨
      (t.before.sessions.lookup key = some session ∧ ¬t.Revokes key) := by
  obtain ⟨before, x, after, outcome⟩ := t
  change Auth.Passage lib (before.prune x.answers.entered) x after outcome at h
  change after.sessions.lookup key = some session at hlive
  -- turns that leave the sessions alone, apart from pruning, revoke none
  have hkept (hsessions : after.sessions = (before.prune x.answers.entered).sessions)
      (hlogout : ¬Answered ⟨before, x, after, outcome⟩ .post "/auth/logout" 200)
      (hcallback : ¬Answered ⟨before, x, after, outcome⟩ .get "/auth/callback" 303) :
      before.sessions.lookup key = some session ∧ ¬Revokes ⟨before, x, after, outcome⟩ key := by
    rw [hsessions] at hlive
    exact ⟨(Auth.prune_sessions.mp hlive).1, fun hrevokes => hrevokes.2.elim hlogout hcallback⟩
  -- a logout erases the session of the request, which is the only one it revokes
  have herased {presented : String}
      (hsessions : after.sessions = (before.prune x.answers.entered).sessions.erase presented)
      (hkey : before.presented "session" x.request = some presented) :
      before.sessions.lookup key = some session ∧ ¬Revokes ⟨before, x, after, outcome⟩ key := by
    rw [hsessions, AList.lookup_erase'] at hlive
    split at hlive
    · cases hlive
    · rename_i hother
      refine ⟨(Auth.prune_sessions.mp hlive).1, fun hrevokes => hother ?_⟩
      exact Option.some.inj (hrevokes.1.symm.trans hkey)
  cases h with
  | callback hmethod hpath hkey hflow hlogin hroom =>
      rename_i flowKey flow login
      rw [AList.lookup_insert'] at hlive
      split at hlive
      · rename_i hnew
        cases hlive
        subst hnew
        exact .inl ⟨rfl, login, .of_callback hmethod hpath hkey hflow hlogin, rfl⟩
      · obtain ⟨hother, hlive⟩ := AList.lookup_forget_eq_some.mp hlive
        exact .inr ⟨(Auth.prune_sessions.mp hlive).1, fun hrevokes => hother hrevokes.1⟩
  | signOut hmethod hpath hheader hkey hsession => exact .inr (herased rfl hkey)
  | signOutAtProvider hmethod hpath hheader hkey hsession hprovider hroom => exact .inr (herased rfl hkey)
  | login hmethod hpath | noLogin hmethod hpath | noHandoff hmethod hpath | handoff hmethod hpath
  | badEndpoint hmethod hpath | identity hmethod hpath =>
      exact .inr (hkept rfl (by simp [Answered, hmethod]) (by simp [Answered, hpath]))
  | denied hmethod hpath hplain hcode =>
      refine .inr (hkept rfl (by simp [Answered, hmethod]) ?_)
      rcases hcode with hcode | hcode <;> simp [Answered, hcode]
  | answered hplain hlogin hcallback hlogout =>
      refine .inr (hkept rfl ?_ fun hanswered => hcallback ⟨hanswered.1, hanswered.2.1⟩)
      rintro ⟨-, hpath, response, hresponse, hcode⟩
      cases hresponse
      exact hlogout hpath hcode
  | forward => exact .inr (hkept rfl (by simp [Answered]) (by simp [Answered]))

end Turn

/-! ### Admission -/

/-- The gate answers with a user name. -/
def Auth.Shows (outcome : Outcome) (username : String) : Prop :=
  ∃ response, outcome = .reply response ∧ response.body = .json (.object [("username", .string username)])

/-- A request passes the gate only by a session that has survived pruning. -/
theorem Auth.gate_forward {auth : Auth} {x : Exchange} (h : (auth.gate lib x).2 = .forward) :
    ∃ key session, auth.presented "session" x.request = some key ∧
      auth.sessions.lookup key = some session ∧ x.answers.entered < session.expires := by
  have hpassage := Auth.gate_passage lib auth x
  rw [h] at hpassage
  generalize (auth.gate lib x).1 = after at hpassage
  cases hpassage with
  | forward hlogin hcallback hkey hlive =>
      obtain ⟨hlive, hexpires⟩ := Auth.prune_sessions.mp hlive
      exact ⟨_, _, hkey, hlive, hexpires⟩

/-- A request for something behind the gate passes it with a session that lasts. -/
theorem Auth.gate_forward_of_session {auth : Auth} {x : Exchange} {key : String} {session : Session}
    (hkey : auth.presented "session" x.request = some key) (hlive : auth.sessions.lookup key = some session)
    (hexpires : x.answers.entered < session.expires) (hbehind : Text.startsWith x.request.path "/auth/" = false) :
    (auth.gate lib x).2 = .forward := by
  have hother : ∀ own, Text.startsWith own "/auth/" = true → x.request.path ≠ own := by
    intro own hown hsame
    rw [hsame, hown] at hbehind
    cases hbehind
  have hpresented : (auth.prune x.answers.entered).presented "session" x.request = some key := hkey
  have hkept : key ∈ (auth.prune x.answers.entered).sessions :=
    AList.mem_iff_lookup.mpr ⟨session, Auth.prune_sessions.mpr ⟨hlive, hexpires⟩⟩
  simp [Auth.gate, hother "/auth/login" (by decide), hother "/auth/callback" (by decide),
    hother "/auth/end-session" (by decide), hother "/auth/logout.js" (by decide), hother "/auth/logout" (by decide),
    hother "/auth/signed-out" (by decide), hother "/auth/session" (by decide), hpresented, hkept]

theorem Auth.showing_notin_notices (username : String) : Auth.showing username ∉ Auth.notices := by
  intro hin
  rcases Auth.text_or_error _ hin with ⟨text, htext⟩ | ⟨error, herror⟩
  · cases htext
  · simp [Auth.showing] at herror

/-- The name it shows is the one of the session of the request. -/
theorem Auth.gate_shows {auth : Auth} {x : Exchange} {username : String}
    (h : Auth.Shows (auth.gate lib x).2 username) :
    ∃ key session, auth.presented "session" x.request = some key ∧
      auth.sessions.lookup key = some session ∧ x.answers.entered < session.expires ∧
      session.username = username := by
  obtain ⟨response, hresponse, hbody⟩ := h
  have hanswer := Auth.gate_answer hresponse
  generalize response.body = body at hanswer hbody
  cases hanswer with
  | notice hnotice =>
      rw [hbody] at hnotice
      exact absurd hnotice (Auth.showing_notin_notices username)
  | redirect hredirect =>
      rw [hbody] at hredirect
      simp [Auth.redirects, Auth.redirectTo] at hredirect
  | name hroute hkey hlive hexpires => exact ⟨_, _, hkey, hlive, hexpires, by simpa [Auth.showing] using hbody⟩
  | page => cases hbody

variable {config : Oidc} {url : Url} {authority : String}

/-- The history behind a live session. -/
theorem session_issued (history : List Exchange) (key : String) (session : Session)
    (hlive : ((logins lib config url authority).run history).sessions.lookup key = some session) :
    Issued (fun t (entry : String × Session) => t.exchange.answers.key = entry.1 ∧
        ∃ login, t.Opens lib entry.1 login ∧ entry.2 = Auth.sessionOf login t.exchange.answers.stored)
      (fun t entry => t.Revokes entry.1) ((logins lib config url authority).trace history)
      (key, session) := by
  refine (logins lib config url authority).provenance
    (fun auth entry => auth.sessions.lookup entry.1 = some entry.2) ?_ ?_ history (key, session) hlive
  · rintro ⟨key, session⟩ hlive
    simp [logins, Auth.start] at hlive
  · rintro auth x ⟨key, session⟩ hlive
    rcases (turn_real lib auth x).sessions hlive with hopens | ⟨hbefore, hkept⟩
    · exact .inl ⟨[], _, rfl, hopens⟩
    · refine .inr ⟨hbefore, fun t ht => ?_⟩
      rw [List.mem_singleton.mp ht]
      exact hkept

/-- The one session cookie of a request holds a key that a login opened in the past: less than the
lifetime of the login ago, and with no logout or new login by that key since. -/
structure LiveLogin (lib : External) (turns : List Turn) (auth : Auth) (x : Exchange) (key : String)
    (login : Login) : Prop where
  cookie : x.request.cookies (auth.cookieName "session") = [key]
  opened : ∃ earlier opening later, turns = earlier ++ opening :: later ∧ opening.Opens lib key login ∧
    (∀ t ∈ later, ¬t.Revokes key) ∧ x.answers.entered < opening.exchange.answers.stored + login.lifetime

theorem liveLogin_of_session {history : List Exchange} {x : Exchange} {key : String} {session : Session}
    (hkey : ((logins lib config url authority).run history).presented "session" x.request = some key)
    (hlive : ((logins lib config url authority).run history).sessions.lookup key = some session)
    (hexpires : x.answers.entered < session.expires) :
    ∃ login, LiveLogin lib ((logins lib config url authority).trace history)
      ((logins lib config url authority).run history) x key login ∧ session.username = login.username := by
  obtain ⟨earlier, opening, later, htrace, ⟨-, login, hopens, hsession⟩, hlater⟩ :=
    session_issued history key session hlive
  obtain rfl : session = Auth.sessionOf login opening.exchange.answers.stored := hsession
  exact ⟨login, ⟨(Request.cookieValue_eq_some.mp hkey).1, earlier, opening, later, htrace, hopens, hlater,
    hexpires⟩, rfl⟩

/-- A request gets through, or is told a name, by a live login only, and no other answer holds a name: the rest
are notices, the redirects of a logout, and the page for the provider. -/
theorem admission_needs_live_login (lib : External) (config : Oidc) (url : Url) (authority : String)
    (history : List Exchange) (x : Exchange) :
    let turns := (logins lib config url authority).trace history
    let auth := (logins lib config url authority).run history
    ((auth.gate lib x).2 = .forward → ∃ key login, LiveLogin lib turns auth x key login) ∧
      (∀ username, Auth.Shows (auth.gate lib x).2 username →
        ∃ key login, LiveLogin lib turns auth x key login ∧ login.username = username) ∧
      ∀ response, (auth.gate lib x).2 = .reply response → (∃ username, Auth.Shows (auth.gate lib x).2 username) ∨
        response.body ∈ Auth.notices ∨ response.body ∈ Auth.redirects ∨
          ∃ provider, response.body = auth.logoutPage provider := by
  intro turns auth
  refine ⟨?_, ?_, ?_⟩
  · intro hforward
    obtain ⟨key, session, hkey, hlive, hexpires⟩ := Auth.gate_forward hforward
    obtain ⟨login, hlogin, -⟩ := liveLogin_of_session hkey hlive hexpires
    exact ⟨key, login, hlogin⟩
  · intro username hshows
    obtain ⟨key, session, hkey, hlive, hexpires, rfl⟩ := Auth.gate_shows hshows
    obtain ⟨login, hlogin, husername⟩ := liveLogin_of_session hkey hlive hexpires
    exact ⟨key, login, hlogin, husername.symm⟩
  · intro response hresponse
    have hanswer := Auth.gate_answer hresponse
    generalize hbody : response.body = body at hanswer
    cases hanswer with
    | notice hnotice => exact .inr (.inl hnotice)
    | redirect hredirect => exact .inr (.inr (.inl hredirect))
    | @name key session => exact .inl ⟨session.username, response, hresponse, hbody⟩
    | @page key pending => exact .inr (.inr (.inr ⟨pending.provider, rfl⟩))

/-- A login, the callback that carries it out, and a request with the cookie it got. -/
example :
    let endpoint := "https://id.example/"
    let url : Url := ⟨"https", "", none, some "agent.example", "/", none, none, "https://agent.example"⟩
    let lib : External :=
      ⟨fun _ => false, fun _ => none, fun _ => some url, fun _ => [("state", "s"), ("code", "c")]⟩
    let config : Oidc := { Oidc.default with enabled := true, clientId := "agent", requiredGroup := "admin" }
    let claims : Claims := ⟨none, [("groups", .string "staff,admin")], none, 0, 1000, none, none, "alice"⟩
    let discovery : Discovery := ⟨200, some .null, some ⟨endpoint, endpoint, some endpoint, endpoint⟩⟩
    let answers (now : Instant) (key : String) : Answers :=
      ⟨now, now, now, now, key, "s", "n", "v", some discovery, some (), fun _ _ _ _ _ => endpoint,
        fun _ _ _ _ => .ok ⟨"token", claims, .ok ""⟩⟩
    let visit (path cookie : String) : Request := ⟨.get, path, [("Cookie", cookie)], none, none⟩
    let auth := (logins lib config url "agent.example").run
      [⟨visit "/auth/login" "", answers 0 "k1"⟩,
        ⟨visit "/auth/callback?state=s" "__Host-syslog_flow=k1", answers 10 "k2"⟩]
    (match (auth.gate lib ⟨visit "/" "theme=dark; __Host-syslog_session=k2", answers 20 "k3"⟩).2 with
      | .forward => true
      | _ => false) = true := by
  decide +kernel

end SyslogDtlsAgent
