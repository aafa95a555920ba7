import SyslogDtlsAgent.Proof.Login.Sessions

/-!
# The logout at the provider

An ID token is kept from the login to the session, from the session to the pending logout, and from
there to one page. Each step takes the token out of the map it came from, so a page goes back to one
logout and that to one login, and since keys are not drawn twice the session is gone for good.
-/

namespace SyslogDtlsAgent

open Library

variable {lib : External}

namespace Turn

/-- The ID token on the page of the answer. That no other body holds one is `answer_at`. -/
def disclosed (t : Turn) : Option String :=
  match t.outcome with
  | .reply ⟨_, _, .logoutForm _ idToken _ _⟩ => some idToken
  | _ => none

/-- The answer is the page that logs out at a provider. -/
def Displays (t : Turn) (provider : ProviderLogout) : Prop :=
  ∃ response, t.outcome = .reply response ∧ response.body = t.before.logoutPage provider

theorem Displays.disclosed {t : Turn} {provider : ProviderLogout} (h : t.Displays provider) :
    t.disclosed = some provider.idToken := by
  obtain ⟨⟨code, headers, body⟩, hresponse, rfl⟩ := h
  rw [Turn.disclosed, hresponse]
  rfl

/-- The answer hands out a key just drawn. -/
def Issues (t : Turn) (key : String) : Prop :=
  t.exchange.answers.key = key ∧ ∃ kind age, 0 < age ∧ t.SetsCookie kind key age

/-- No key is drawn for two answers. -/
def Fresh (turns : List Turn) : Prop :=
  ∀ (i j : Nat) s t key, turns[i]? = some s → turns[j]? = some t → s.Issues key → t.Issues key → i = j

/-- A logout from the UI that presents the key of a session and gets a key for the provider's page. -/
structure SignsOut (t : Turn) (sessionKey key : String) : Prop where
  answered : t.Answered .post "/auth/logout" 200
  header : t.exchange.request.header "X-Syslog-UI" = some "1"
  presented : t.presents "session" = some sessionKey
  live : sessionKey ∈ t.before.sessions
  issued : t.exchange.answers.key = key ∧ t.SetsCookie "logout" key 60

/-- The entry of a logout: it holds the token of the session that the logout removed. -/
def HandsOff (t : Turn) (key : String) (pending : PendingLogout) : Prop :=
  ∃ sessionKey session provider, t.SignsOut sessionKey key ∧
    t.before.sessions.lookup sessionKey = some session ∧ session.providerLogout = some provider ∧
    pending = ⟨t.exchange.answers.stored + 60, provider⟩

/-- A visit of the page with the key of a logout. -/
def Redeems (t : Turn) (key : String) : Prop :=
  t.exchange.request.method = .get ∧ t.exchange.request.path = "/auth/end-session" ∧
    t.presents "logout" = some key

/-- A request with the key of a session gets past the gate, or is told whose session it is. -/
def Admits (t : Turn) (key : String) : Prop :=
  t.presents "session" = some key ∧ (t.outcome = .forward ∨ ∃ username, Auth.Shows t.outcome username)

/-- A page with a token redeems the key of a pending logout. -/
theorem Real.disclosed {t : Turn} (h : t.Real lib) {idToken : String} (hpage : t.disclosed = some idToken) :
    ∃ key pending, t.Redeems key ∧ t.Answered .get "/auth/end-session" 200 ∧
      t.before.logouts.lookup key = some pending ∧ t.exchange.answers.entered < pending.expires ∧
      pending.provider.idToken = idToken ∧ t.Displays pending.provider := by
  obtain ⟨before, x, after, outcome⟩ := t
  change Auth.Passage lib (before.prune x.answers.entered) x after outcome at h
  have hplain : ∀ response, Auth.Plain response →
      Turn.disclosed ⟨before, x, after, .reply response⟩ ≠ some idToken := by
    intro ⟨code, headers, body⟩ hnotice
    rcases Auth.text_or_error body hnotice with ⟨text, rfl⟩ | ⟨error, rfl⟩ <;> simp [Turn.disclosed]
  cases h with
  | noLogin hmethod hpath hplain' | denied hmethod hpath hplain' | noHandoff hmethod hpath hplain'
  | answered hplain' => exact absurd hpage (hplain _ hplain')
  | handoff hmethod hpath hkey hpending =>
      obtain ⟨hpending, hexpires⟩ := Auth.prune_logouts.mp hpending
      cases hpage
      exact ⟨_, _, ⟨hmethod, hpath, hkey⟩, ⟨hmethod, hpath, _, rfl, rfl⟩, hpending, hexpires, rfl, _, rfl, rfl⟩
  | badEndpoint | forward | login | callback | signOut | signOutAtProvider | identity => cases hpage

end Turn

/-- The page takes away the pending logout whose key it is given, whatever comes of it. -/
theorem Auth.endSession_logouts (auth : Auth) (x : Exchange) :
    (auth.endSession lib x).1.logouts = auth.logouts.forget (auth.presented "logout" x.request) := by
  unfold Auth.endSession
  simp only
  split
  · rfl
  · split <;> rfl

/-- What a turn does to pending logouts: each one it leaves was made by it, or was there and not
redeemed. -/
theorem turn_logouts (auth : Auth) (x : Exchange) {key : String} {pending : PendingLogout}
    (hpending : (turn lib auth x).after.logouts.lookup key = some pending) :
    (turn lib auth x).HandsOff key pending ∨
      (auth.logouts.lookup key = some pending ∧ ¬(turn lib auth x).Redeems key) := by
  by_cases hroute : x.request.method = .get ∧ x.request.path = "/auth/end-session"
  · right
    have hgate : auth.gate lib x = (auth.prune x.answers.entered).endSession lib x := by
      simp [Auth.gate, hroute]
    rw [turn, hgate, Auth.endSession_logouts, AList.lookup_forget_eq_some] at hpending
    obtain ⟨hother, hpending⟩ := hpending
    exact ⟨(Auth.prune_logouts.mp hpending).1, fun hredeems => hother hredeems.2.2⟩
  · have hredeems : ¬(turn lib auth x).Redeems key := fun hredeems => hroute ⟨hredeems.1, hredeems.2.1⟩
    have hkept : (auth.prune x.answers.entered).logouts.lookup key = some pending →
        auth.logouts.lookup key = some pending ∧ ¬(turn lib auth x).Redeems key :=
      fun hpending => ⟨(Auth.prune_logouts.mp hpending).1, hredeems⟩
    have hpassage := Auth.gate_passage lib auth x
    simp only [turn] at hpending ⊢ hredeems hkept
    generalize (auth.gate lib x).1 = after at hpassage hpending ⊢ hredeems hkept
    generalize (auth.gate lib x).2 = outcome at hpassage ⊢ hredeems hkept
    cases hpassage with
    | signOutAtProvider hmethod hpath hheader hkey hlive hprovider hroom =>
        rw [AList.lookup_insert'] at hpending
        split at hpending
        · rename_i hnew
          cases hpending
          have hlive := (Auth.prune_sessions.mp hlive).1
          refine .inl ⟨_, _, _, ⟨⟨hmethod, hpath, _, rfl, rfl⟩, hheader, hkey,
            AList.mem_iff_lookup.mpr ⟨_, hlive⟩, hnew.symm, ?_⟩, hlive, hprovider, rfl⟩
          subst hnew
          exact ⟨_, rfl, List.mem_append_right _ (List.mem_cons_of_mem _ List.mem_cons_self)⟩
        · exact .inr (hkept (AList.lookup_forget_eq_some.mp hpending).2)
    | noHandoff hmethod hpath | handoff hmethod hpath | badEndpoint hmethod hpath =>
        exact absurd ⟨hmethod, hpath⟩ hroute
    | login | noLogin | callback | denied | signOut | answered | identity | forward =>
        exact .inr (hkept hpending)

/-- A request is admitted only with a key in the map of sessions. -/
theorem turn_admits {auth : Auth} {x : Exchange} {key : String} (h : (turn lib auth x).Admits key) :
    key ∈ auth.sessions := by
  obtain ⟨hpresents, hforward | ⟨username, hshows⟩⟩ := h
  · obtain ⟨key', session, hkey, hlive, -⟩ := Auth.gate_forward hforward
    obtain rfl : key' = key := Option.some.inj (hkey.symm.trans hpresents)
    exact AList.mem_iff_lookup.mpr ⟨session, hlive⟩
  · obtain ⟨key', session, hkey, hlive, -⟩ := Auth.gate_shows hshows
    obtain rfl : key' = key := Option.some.inj (hkey.symm.trans hpresents)
    exact AList.mem_iff_lookup.mpr ⟨session, hlive⟩

variable {config : Oidc} {url : Url} {authority : String}

/-- The history behind a pending logout. -/
theorem logout_issued (history : List Exchange) (key : String) (pending : PendingLogout)
    (hpending : ((logins lib config url authority).run history).logouts.lookup key = some pending) :
    Issued (fun t (entry : String × PendingLogout) => t.HandsOff entry.1 entry.2)
      (fun t entry => t.Redeems entry.1) ((logins lib config url authority).trace history)
      (key, pending) := by
  refine (logins lib config url authority).provenance
    (fun auth entry => auth.logouts.lookup entry.1 = some entry.2) ?_ ?_ history (key, pending) hpending
  · rintro ⟨key, pending⟩ hpending
    simp [logins, Auth.start] at hpending
  · rintro auth x ⟨key, pending⟩ hpending
    rcases turn_logouts auth x hpending with hhandsOff | ⟨hbefore, hkept⟩
    · exact .inl ⟨[], _, rfl, hhandsOff⟩
    · refine .inr ⟨hbefore, fun t ht => ?_⟩
      rw [List.mem_singleton.mp ht]
      exact hkept

theorem Turn.Opens.issues {t : Turn} {key : String} {login : Login} (h : t.Opens lib key login)
    (hkey : t.exchange.answers.key = key) : t.Issues key :=
  ⟨hkey, "session", login.lifetime, h.lifetime.1, h.issued⟩

section

variable {history : List Exchange}

/-- The opening of a session that is live before a turn. -/
theorem opened_before {j : Nat} {t : Turn} {key : String} {session : Session}
    (ht : ((logins lib config url authority).trace history)[j]? = some t)
    (hlive : t.before.sessions.lookup key = some session) :
    ∃ o opening login, o < j ∧ ((logins lib config url authority).trace history)[o]? = some opening ∧
      opening.Opens lib key login ∧ opening.Issues key ∧ session.providerLogout = login.providerLogout ∧
      ∀ m u, o < m → m < j → ((logins lib config url authority).trace history)[m]? = some u →
        ¬u.Revokes key := by
  rw [(turn_at ht).2.1] at hlive
  obtain ⟨o, opening, hlt, ho, ⟨hkey, login, hopens, hsession⟩, hsince⟩ :=
    issued_before ht (session_issued (history.take j) key session hlive)
  obtain rfl : session = Auth.sessionOf login opening.exchange.answers.stored := hsession
  exact ⟨o, opening, login, hlt, ho, hopens, hopens.issues hkey, rfl, hsince⟩

/-- Since keys are not drawn twice, the session of a key that has signed out does not come back. -/
theorem gone_for_good (hfresh : Turn.Fresh ((logins lib config url authority).trace history))
    {i m : Nat} {t u : Turn} {sessionKey key : String} {session : Session} (him : i < m)
    (ht : ((logins lib config url authority).trace history)[i]? = some t)
    (hu : ((logins lib config url authority).trace history)[m]? = some u)
    (hlive : t.before.sessions.lookup sessionKey = some session) (hsignsOut : t.SignsOut sessionKey key) :
    sessionKey ∉ u.before.sessions := by
  intro hin
  obtain ⟨session', hlive'⟩ := AList.mem_iff_lookup.mp hin
  obtain ⟨o, opening, login, hoi, ho, hopens, hissues, -, -⟩ := opened_before ht hlive
  obtain ⟨o', opening', login', hom, ho', hopens', hissues', -, hsince⟩ := opened_before hu hlive'
  obtain rfl : o = o' := hfresh o o' opening opening' sessionKey ho ho' hissues hissues'
  exact hsince i t hoi him ht ⟨hsignsOut.presented, .inl hsignsOut.answered⟩

end

/-- How the ID token of a login, opened at position `o` of a history, gets on a page at position `j`:
by a logout at position `i` of the session of that login. -/
structure Disclosure (lib : External) (turns : List Turn) (o i j : Nat) (t : Turn) (idToken : String) :
    Prop where
  order : o < i ∧ i < j
  page : t.Answered .get "/auth/end-session" 200
  chain : ∃ opening signout sessionKey login key provider,
    turns[o]? = some opening ∧ opening.Opens lib sessionKey login ∧ opening.Issues sessionKey ∧
    login.providerLogout = some provider ∧ provider.idToken = idToken ∧ t.Displays provider ∧
    turns[i]? = some signout ∧ signout.SignsOut sessionKey key ∧
    t.presents "logout" = some key ∧
    t.exchange.answers.entered < signout.exchange.answers.stored + 60 ∧
    (∀ m u, i < m → m < j → turns[m]? = some u → ¬u.Redeems key) ∧
    -- the session has been removed, and no later request is admitted with its key
    ∀ m u, i < m → turns[m]? = some u → sessionKey ∉ u.before.sessions ∧ ¬u.Admits sessionKey

theorem disclosure_of_disclosed {history : List Exchange}
    (hfresh : Turn.Fresh ((logins lib config url authority).trace history)) {j : Nat} {t : Turn}
    {idToken : String} (ht : ((logins lib config url authority).trace history)[j]? = some t)
    (hpage : t.disclosed = some idToken) :
    ∃ o i, Disclosure lib ((logins lib config url authority).trace history) o i j t idToken := by
  obtain ⟨key, pending, hredeems, hanswered, hpending, hexpires, rfl, hdisplays⟩ := (turn_at ht).1.disclosed hpage
  rw [(turn_at ht).2.1] at hpending
  obtain ⟨i, signout, hij, hi, ⟨sessionKey, session, provider, hsignsOut, hlive, hprovider, rfl⟩, hsince⟩ :=
    issued_before ht (logout_issued (history.take j) key pending hpending)
  obtain ⟨o, opening, login, hoi, ho, hopens, hissues, hcopied, -⟩ := opened_before hi hlive
  refine ⟨o, i, ⟨hoi, hij⟩, hanswered, opening, signout, sessionKey, login, key, provider, ho, hopens,
    hissues, hcopied ▸ hprovider, rfl, hdisplays, hi, hsignsOut, hredeems.2.2, hexpires, hsince,
    fun m u him hu => ?_⟩
  have hgone := gone_for_good hfresh him hi hu hlive hsignsOut
  refine ⟨hgone, fun hadmits => hgone ?_⟩
  rw [eq_turn hu] at hadmits
  exact turn_admits hadmits

/-- Two pages do not go back to one login: its session signs out once, and the key it gets for the page
is redeemed once. -/
theorem Disclosure.unique {turns : List Turn} {o i i' j j' : Nat} {t t' : Turn} {idToken idToken' : String}
    (h : Disclosure lib turns o i j t idToken) (h' : Disclosure lib turns o i' j' t' idToken')
    (ht : turns[j]? = some t) : ¬j < j' := by
  intro hlt
  obtain ⟨opening, signout, sessionKey, login, key, provider, ho, -, hissues, -, -, -, hi, hsignsOut,
    hpresents, -, -, hgone⟩ := h.chain
  obtain ⟨opening', signout', sessionKey', login', key', provider', ho', -, hissues', -, -, -, hi',
    hsignsOut', -, -, hsince', hgone'⟩ := h'.chain
  obtain rfl : opening = opening' := Option.some.inj (ho.symm.trans ho')
  obtain rfl : sessionKey = sessionKey' := hissues.1.symm.trans hissues'.1
  have hii : i = i' := by
    rcases Nat.lt_trichotomy i i' with hlt | heq | hgt
    · exact absurd hsignsOut'.live (hgone i' signout' hlt hi').1
    · exact heq
    · exact absurd hsignsOut.live (hgone' i signout hgt hi).1
  subst hii
  obtain rfl : signout = signout' := Option.some.inj (hi.symm.trans hi')
  obtain rfl : key = key' := hsignsOut.issued.1.symm.trans hsignsOut'.issued.1
  exact hsince' j t h.order.2 hlt ht ⟨h.page.1, h.page.2.1, hpresents⟩

/-- A turn shows the name of the session it presents: what the claims of the tokens say that the login of that
session was opened with. -/
def Turn.ShowsName (lib : External) (turns : List Turn) (t : Turn) (body : Body) : Prop :=
  t.exchange.request.method = .get ∧ t.exchange.request.path = "/auth/session" ∧
    ∃ key login opening tokens, LiveLogin lib turns t.before t.exchange key login ∧
      opening ∈ turns ∧ opening.Opens lib key login ∧ opening.RedeemsFor lib tokens login ∧
      login.username = tokens.claims.shownName ∧ body = Auth.showing login.username

/-- What the answer of a turn of a history holds: a fixed text, the name of the live session of the request, or
the page of a provider. -/
theorem answer_at {history : List Exchange} {j : Nat} {t : Turn} {response : Response}
    (ht : ((logins lib config url authority).trace history)[j]? = some t) (hresponse : t.outcome = .reply response) :
    response.body ∈ Auth.notices ∨ response.body ∈ Auth.redirects ∨
      t.ShowsName lib (((logins lib config url authority).trace history).take j) response.body ∨
      ∃ provider, response.body = t.before.logoutPage provider ∧ t.disclosed = some provider.idToken := by
  obtain ⟨hreal, hbefore, htake⟩ := turn_at ht
  have hanswer : Auth.Answer t.before t.exchange response.body := by
    rw [Turn.Real, hresponse] at hreal
    exact hreal.answer
  generalize hbody : response.body = body at hanswer
  cases hanswer with
  | notice hnotice => exact .inl hnotice
  | redirect hredirect => exact .inr (.inl hredirect)
  | name hroute hkey hlive hexpires =>
      rw [hbefore] at hkey hlive
      obtain ⟨login, hlogin, husername⟩ := liveLogin_of_session hkey hlive hexpires
      rw [← htake, ← hbefore] at hlogin
      obtain ⟨earlier, opening, later, hsplit, hopens, -⟩ := hlogin.opened
      obtain ⟨tokens, hredeems, hnamed⟩ := hopens.named
      have hopening : opening ∈ ((logins lib config url authority).trace history).take j := by
        rw [hsplit]
        exact List.mem_append_right _ List.mem_cons_self
      exact .inr (.inr (.inl ⟨hroute.1, hroute.2, _, login, opening, tokens, hlogin, hopening, hopens, hredeems,
        hnamed, by rw [husername]⟩))
  | page =>
      have hdisplays : t.Displays _ := ⟨response, hresponse, hbody⟩
      exact .inr (.inr (.inr ⟨_, rfl, hdisplays.disclosed⟩))

/-- Every page with an ID token has the history of a `Disclosure`, and no two pages show the token of
one login. No other body holds one: each is a fixed text, a redirect, or the name that the claims of a live login
give the session of the request. -/
theorem id_tokens_are_disclosed_once (lib : External) (config : Oidc) (url : Url) (authority : String)
    (history : List Exchange) (hfresh : Turn.Fresh ((logins lib config url authority).trace history)) :
    let turns := (logins lib config url authority).trace history
    ∃ opened signedOut : Nat → Nat,
      (∀ j t idToken, turns[j]? = some t → t.disclosed = some idToken →
        Disclosure lib turns (opened j) (signedOut j) j t idToken) ∧
      (∀ i j s t idToken idToken', turns[i]? = some s → turns[j]? = some t →
        s.disclosed = some idToken → t.disclosed = some idToken' → opened i = opened j → i = j) ∧
      ∀ (j : Nat) (t : Turn) (response : Response), turns[j]? = some t → t.outcome = .reply response →
        response.body ∈ Auth.notices ∨ response.body ∈ Auth.redirects ∨
          t.ShowsName lib (turns.take j) response.body ∨
          ∃ provider, response.body = t.before.logoutPage provider ∧ t.disclosed = some provider.idToken := by
  intro turns
  have horigin : ∀ j, ∃ origin : Nat × Nat, ∀ t idToken, turns[j]? = some t →
      t.disclosed = some idToken → Disclosure lib turns origin.1 origin.2 j t idToken := by
    intro j
    by_cases h : ∃ t idToken, turns[j]? = some t ∧ t.disclosed = some idToken
    · obtain ⟨t, idToken, ht, hpage⟩ := h
      obtain ⟨o, i, hdisclosure⟩ := disclosure_of_disclosed hfresh ht hpage
      refine ⟨(o, i), fun t' idToken' ht' hpage' => ?_⟩
      obtain rfl : t = t' := Option.some.inj (ht.symm.trans ht')
      obtain rfl : idToken = idToken' := Option.some.inj (hpage.symm.trans hpage')
      exact hdisclosure
    · exact ⟨(0, 0), fun t idToken ht hpage => absurd ⟨t, idToken, ht, hpage⟩ h⟩
  choose origin horigin using horigin
  refine ⟨fun j => (origin j).1, fun j => (origin j).2, horigin, ?_, fun j t response => answer_at⟩
  intro i j s t idToken idToken' hs ht hspage htpage hsame
  have hi := horigin i s idToken hs hspage
  have hj := horigin j t idToken' ht htpage
  simp only at hsame
  rw [hsame] at hi
  rcases Nat.lt_trichotomy i j with hlt | heq | hgt
  · exact absurd hlt (hi.unique hj hs)
  · exact heq
  · exact absurd hgt (hj.unique hi ht)

/-- Distinct random values make every run fresh. -/
theorem fresh_of_nodup {history : List Exchange} (hnodup : (history.map fun x => x.answers.key).Nodup) :
    Turn.Fresh ((logins lib config url authority).trace history) := by
  have hkey : ∀ (i : Nat) t, ((logins lib config url authority).trace history)[i]? = some t →
      (history.map fun x => x.answers.key)[i]? = some t.exchange.answers.key := by
    intro i t ht
    obtain ⟨hget, -⟩ := (logins lib config url authority).traceFrom_in_step (f := turn lib)
      (fun auth x => rfl) (Auth.start config url authority) history i
    obtain ⟨x, hx, rfl⟩ := Option.map_eq_some_iff.mp (hget.symm.trans ht)
    rw [List.getElem?_map, hx]
    rfl
  intro i j s t key hs ht hsIssues htIssues
  have hi := hkey i s hs
  have hj := hkey j t ht
  rw [hsIssues.1] at hi
  rw [htIssues.1] at hj
  obtain ⟨hlt, -⟩ := List.getElem?_eq_some_iff.mp hi
  exact (List.getElem?_inj hlt hnodup).mp (hi.trans hj.symm)

/-- A login, its callback, the logout and the page: the page shows the token of that login. -/
theorem id_tokens_are_disclosed_once_by_the_page :
    let endpoint := "https://id.example/"
    let url : Url := ⟨"https", "", none, some "agent.example", "/", none, none, "https://agent.example"⟩
    let lib : External :=
      ⟨fun _ => false, fun _ => none, fun _ => some url, fun _ => [("state", "s"), ("code", "c")]⟩
    let config : Oidc := { Oidc.default with enabled := true, clientId := "agent", requiredGroup := "admin" }
    let claims : Claims := ⟨none, [("groups", .string "admin")], none, 0, 1000, none, none, "alice"⟩
    let document : Json := .object [("end_session_endpoint", .string "https://id.example/logout")]
    let discovery : Discovery := ⟨200, some document, some ⟨endpoint, endpoint, some endpoint, endpoint⟩⟩
    let answers (now : Instant) (key : String) : Answers :=
      ⟨now, now, now, now, key, "s", "n", "v", some discovery, some (), fun _ _ _ _ _ => endpoint,
        fun _ _ _ _ => .ok ⟨"token", claims, .ok ""⟩⟩
    let visit (method : Method) (path cookie : String) : Request :=
      ⟨method, path, [("Cookie", cookie), ("X-Syslog-UI", "1")], none, none⟩
    let history : List Exchange :=
      [⟨visit .get "/auth/login" "", answers 0 "k1"⟩,
        ⟨visit .get "/auth/callback?state=s" "__Host-syslog_flow=k1", answers 10 "k2"⟩,
        ⟨visit .post "/auth/logout" "__Host-syslog_session=k2", answers 20 "k3"⟩,
        ⟨visit .get "/auth/end-session" "__Host-syslog_logout=k3", answers 30 "k4"⟩]
    let turns := (logins lib config url "agent.example").trace history
    ∃ o i t, turns[3]? = some t ∧ Disclosure lib turns o i 3 t "token" := by
  intro endpoint url lib config claims document discovery answers visit history turns
  have hpage : (turns[3]?.bind Turn.disclosed) = some "token" := by decide +kernel
  obtain ⟨t, ht, hdisclosed⟩ := Option.bind_eq_some_iff.mp hpage
  obtain ⟨opened, signedOut, hdisclosures, -, -⟩ :=
    id_tokens_are_disclosed_once lib config url "agent.example" history (fresh_of_nodup (by decide))
  exact ⟨_, _, t, ht, hdisclosures 3 t "token" ht hdisclosed⟩

end SyslogDtlsAgent
