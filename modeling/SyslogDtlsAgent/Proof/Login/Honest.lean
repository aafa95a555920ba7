import SyslogDtlsAgent.Proof.Login.Expiry
import SyslogDtlsAgent.Proof.Login.Flows

/-!
# An honest login gets through

The checks of a login, read forwards: a provider that answers as it should, a callback that brings back what
the login sent out, and claims that are good for a login are enough, whatever requests come in between. Only one
that presents the cookie of a flow or of a session can take it away before its time is over.
-/

namespace SyslogDtlsAgent

open Library

variable {lib : External}

/-! ### The checks pass -/

/-- A provider that answers discovery as it should. -/
structure Healthy (lib : External) (auth : Auth) (answers : Answers) (metadata : Metadata) : Prop where
  discovery : (httpUrl lib auth.config.discoveryUri).isOk = true
  document : ∃ document, answers.discovery = some ⟨200, some document, some metadata⟩
  issuer : ∃ issuer, httpUrl lib metadata.issuer = .ok issuer ∧ issuer.query = none
  keys : (httpUrl lib metadata.jwksUri).isOk = true ∧ answers.keySet = some ()
  authorization : (httpUrl lib metadata.authorizationEndpoint).isOk = true
  token : ∃ tokenUrl, metadata.tokenEndpoint = some tokenUrl ∧ (httpUrl lib tokenUrl).isOk = true
  redirect : (lib.urlParse (auth.origin ++ "/auth/callback")).isSome = true

/-- What a flow has to remember of its login. -/
structure Flow.Remembers (flow : Flow) (auth : Auth) (answers : Answers) (metadata : Metadata) : Prop where
  issuer : flow.issuer = metadata.issuer
  client : flow.client = ⟨metadata, auth.config.clientId, auth.secret, auth.origin ++ "/auth/callback"⟩
  state : flow.state = answers.state
  nonce : flow.nonce = answers.nonce
  pkce : flow.pkce = answers.pkce
  expires : flow.expires = answers.stored + 300

theorem Auth.beginLogin_of_healthy {auth : Auth} {answers : Answers} {metadata : Metadata}
    (h : Healthy lib auth answers metadata) :
    ∃ url flow, auth.beginLogin lib answers = .ok (url, answers.key, flow) ∧
      flow.Remembers auth answers metadata := by
  obtain ⟨document, hdocument⟩ := h.document
  obtain ⟨issuer, hissuer, hquery⟩ := h.issuer
  obtain ⟨hjwks, hkeys⟩ := h.keys
  obtain ⟨tokenUrl, htoken, htokenUrl⟩ := h.token
  obtain ⟨parsed, hparsed⟩ := exists_of_isOk htokenUrl
  obtain ⟨authorization, hauthorization⟩ := exists_of_isOk h.authorization
  obtain ⟨redirect, hredirect⟩ := Option.isSome_iff_exists.mp h.redirect
  have hbegun : ∃ result, auth.beginLogin lib answers = .ok result := by
    simp only [Auth.beginLogin, bind_eq_ok, reject_eq_ok, okOr_eq_ok, exists_const]
    refine ⟨_, ⟨200, some document, some metadata⟩, ?_, rfl, document, rfl, metadata, rfl, issuer, hissuer, ?_, (), ?_,
      authorization, hauthorization, tokenUrl, htoken, parsed, hparsed, ?_, rfl⟩
    · rw [Auth.providerRequest, if_pos h.discovery, hdocument]
    · rw [hquery]
      rfl
    · rw [Auth.providerRequest, if_pos hjwks, hkeys]
    · rw [hredirect]
      rfl
  obtain ⟨⟨url, key, flow⟩, hbegun⟩ := hbegun
  have hremembers := hbegun
  simp only [Auth.beginLogin, bind_eq_ok, reject_eq_ok, okOr_eq_ok, exists_const] at hremembers
  obtain ⟨response, hresponse, -, read, -, found, hfound, from_, -, -, -, -, -, -, tokenUrl, -, -, -, -, hresult⟩ :=
    hremembers
  rw [Auth.providerRequest, if_pos h.discovery, hdocument] at hresponse
  obtain rfl := Option.some.inj hresponse
  obtain rfl := Option.some.inj hfound
  cases hresult
  exact ⟨_, _, hbegun, rfl, rfl, rfl, rfl, rfl, rfl⟩

theorem Auth.collectParams_of_nodup {pairs : List (String × String)} {known : Table String String}
    (hunique : (pairs.map Prod.fst).Nodup) (hfresh : ∀ key ∈ pairs.map Prod.fst, key ∉ known) :
    ∃ params, Auth.collectParams pairs known = .ok params := by
  induction pairs generalizing known with
  | nil => exact ⟨known, rfl⟩
  | cons pair pairs ih =>
      obtain ⟨name, text⟩ := pair
      obtain ⟨hname, hunique⟩ := List.nodup_cons.mp hunique
      rw [Auth.collectParams, if_neg (hfresh name List.mem_cons_self)]
      refine ih hunique fun key hkey => ?_
      rw [AList.mem_insert, not_or]
      exact ⟨fun hsame => hname (hsame ▸ hkey), hfresh key (List.mem_cons_of_mem _ hkey)⟩

theorem Auth.callbackCode_of_expected {path before query code : String} {flow : Flow} {now : Instant}
    (htime : now < flow.expires) (hquery : Text.splitOnce path '?' = some (before, query))
    (hexpected : Expected flow (lib.formUrlencoded query) code) :
    Auth.callbackCode lib path flow now = .ok code := by
  obtain ⟨params, hparams⟩ : ∃ params, Auth.collectParams (lib.formUrlencoded query) ∅ = .ok params :=
    Auth.collectParams_of_nodup hexpected.unique fun key _ => AList.notMem_empty key
  obtain ⟨-, -, hlookup⟩ := Auth.collectParams_spec hparams
  have hmem : ∀ key value, params.lookup key = some value ↔ (key, value) ∈ lib.formUrlencoded query := by
    intro key value
    simpa using hlookup key value
  have hstate : params.lookup "state" = some flow.state := (hmem _ _).mpr hexpected.state
  have herror : params.lookup "error" = none := by
    refine Option.eq_none_iff_forall_ne_some.mpr fun value hvalue => hexpected.noError ?_
    exact List.mem_map_of_mem ((hmem _ _).mp hvalue)
  have hissuer : (params.lookup "iss").any (· != flow.issuer) = false := by
    rw [Option.any_eq_false]
    intro iss hiss
    simpa using hexpected.issuer iss ((hmem _ _).mp hiss)
  have hcode : (params.lookup "code").filter (· != "") = some code := by
    rw [Option.filter_eq_some_iff]
    exact ⟨(hmem _ _).mpr hexpected.code.2, by simpa using hexpected.code.1⟩
  simp only [Auth.callbackCode, bind_eq_ok, reject_eq_ok, okOr_eq_ok, exists_const]
  exact ⟨_, hquery, params, hparams, by simp [hstate, htime], by simp [herror], hissuer, hcode⟩

/-- A token that names the hash of an access token comes with that one. -/
def TokenResponse.Matches (tokens : TokenResponse) : Prop :=
  ∀ expected ∈ tokens.claims.accessTokenHash, tokens.accessTokenHash = .ok expected

theorem Auth.acceptTokens_of_good {config : Oidc} {flow : Flow} {tokens : TokenResponse} {wall : ℚ}
    (hmatches : tokens.Matches) (hwall : 0 ≤ wall) (hgood : Good config tokens.claims ⌊wall⌋) :
    ∃ login, Auth.acceptTokens config flow tokens wall = .ok login := by
  have hhash : Auth.checkAccessToken tokens = .ok () := by
    unfold Auth.checkAccessToken
    cases hnamed : tokens.claims.accessTokenHash with
    | none => rfl
    | some expected =>
        simp only [hmatches expected hnamed, bind_eq_ok, reject_eq_ok]
        exact ⟨expected, rfl, bne_self_eq_false _⟩
  have hgroup : hasGroup (tokens.claims.additional.lookup config.groupsClaim) config.requiredGroup = true :=
    hasGroup_iff.mpr hgood.group
  have hnow : Auth.epochSeconds wall = some ⌊wall⌋ := Auth.epochSeconds_eq_some.mpr ⟨hwall, rfl⟩
  have hparty : tokens.claims.authorizedParty.any (· != config.clientId) = false := by
    rw [Option.any_eq_false]
    intro party hin
    simpa using hgood.party party hin
  have hnbf : ((tokens.claims.additional.lookup "nbf").any
      fun nbf => nbf.asI64.all fun value => decide (⌊wall⌋ + 60 < value)) = false := by
    rw [Option.any_eq_false]
    intro nbf hin
    obtain ⟨seconds, hseconds, hearly⟩ := hgood.notBefore nbf hin
    simpa [hseconds] using hearly
  have hexpiry := hgood.expiry
  have hissued := hgood.issued
  simp only [Auth.acceptTokens, bind_eq_ok, reject_eq_ok, okOr_eq_ok, exists_const]
  refine ⟨_, (), hhash, by simp [hgroup], ⌊wall⌋, hnow, by simp [hparty, hissued], hnbf, ?_, rfl⟩
  simp only [beq_eq_false_iff_ne]
  omega

/-! ### Nobody else takes it away -/

/-- A turn that leaves the entry of a key alone: it comes before the entry is over, draws another key, and is
none that ends the entry. -/
structure Turn.Spares (Ends : Turn → String → Prop) (key : String) (expires : Instant) (t : Turn) : Prop where
  inTime : t.exchange.answers.entered < expires
  drawn : t.exchange.answers.key ≠ key
  spared : ¬Ends t key

theorem Turn.Real.keeps_flow {t : Turn} (h : t.Real lib) {key : String} {flow : Flow}
    (hflow : t.before.flows.lookup key = some flow) (hspares : t.Spares Turn.Consumes key flow.expires) :
    t.after.flows.lookup key = some flow := by
  obtain ⟨before, x, after, outcome⟩ := t
  change Auth.Passage lib (before.prune x.answers.entered) x after outcome at h
  have hlive : (before.prune x.answers.entered).flows.lookup key = some flow :=
    Auth.prune_flows.mpr ⟨hflow, hspares.inTime⟩
  have hother (hends : Turn.IsCallback ⟨before, x, after, outcome⟩ ∨
        Turn.Answered ⟨before, x, after, outcome⟩ .get "/auth/login" 303) :
      ((before.prune x.answers.entered).flows.forget (before.presented "flow" x.request)).lookup key = some flow :=
    AList.lookup_forget_eq_some.mpr ⟨fun hkey => hspares.spared ⟨hkey, hends⟩, hlive⟩
  cases h with
  | login hmethod hpath hroom hbegin =>
      rw [AList.lookup_insert', if_neg (Ne.symm hspares.drawn)]
      exact hother (.inr ⟨hmethod, hpath, _, rfl, rfl⟩)
  | callback hmethod hpath => exact hother (.inl ⟨hmethod, hpath⟩)
  | denied hmethod hpath => exact hother (.inl ⟨hmethod, hpath⟩)
  | noLogin | noHandoff | handoff | badEndpoint | signOut | signOutAtProvider | answered | identity | forward =>
      exact hlive

theorem Turn.Real.keeps_session {t : Turn} (h : t.Real lib) {key : String} {session : Session}
    (hsession : t.before.sessions.lookup key = some session)
    (hspares : t.Spares Turn.Revokes key session.expires) : t.after.sessions.lookup key = some session := by
  obtain ⟨before, x, after, outcome⟩ := t
  change Auth.Passage lib (before.prune x.answers.entered) x after outcome at h
  have hlive : (before.prune x.answers.entered).sessions.lookup key = some session :=
    Auth.prune_sessions.mpr ⟨hsession, hspares.inTime⟩
  -- a logout erases the session it presents, which is another one
  have herased {presented : String} (hpresented : before.presented "session" x.request = some presented)
      (hanswered : Turn.Answered ⟨before, x, after, outcome⟩ .post "/auth/logout" 200) :
      ((before.prune x.answers.entered).sessions.erase presented).lookup key = some session := by
    rw [AList.lookup_erase', if_neg, hlive]
    intro hsame
    exact hspares.spared ⟨hsame ▸ hpresented, .inl hanswered⟩
  cases h with
  | callback hmethod hpath =>
      rw [AList.lookup_insert', if_neg (Ne.symm hspares.drawn)]
      refine AList.lookup_forget_eq_some.mpr ⟨fun hkey => ?_, hlive⟩
      exact hspares.spared ⟨hkey, .inr ⟨hmethod, hpath, _, rfl, rfl⟩⟩
  | signOut hmethod hpath hheader hkey => exact herased hkey ⟨hmethod, hpath, _, rfl, rfl⟩
  | signOutAtProvider hmethod hpath hheader hkey => exact herased hkey ⟨hmethod, hpath, _, rfl, rfl⟩
  | login | noLogin | denied | noHandoff | handoff | badEndpoint | answered | identity | forward => exact hlive

variable {config : Oidc} {url : Url} {authority : String}

theorem flow_kept {auth : Auth} {key : String} {flow : Flow} (hflow : auth.flows.lookup key = some flow)
    (between : List Exchange) (hspares : ∀ t ∈ (logins lib config url authority).traceFrom auth between,
      t.Spares Turn.Consumes key flow.expires) :
    ((logins lib config url authority).runFrom auth between).flows.lookup key = some flow :=
  (logins lib config url authority).kept (P := fun auth => auth.flows.lookup key = some flow)
    (fun auth x hflow hspares => (turn_real lib auth x).keeps_flow hflow (hspares _ List.mem_cons_self))
    hflow between hspares

theorem session_spared {auth : Auth} {key : String} {session : Session}
    (hsession : auth.sessions.lookup key = some session) (later : List Exchange)
    (hspares : ∀ t ∈ (logins lib config url authority).traceFrom auth later,
      t.Spares Turn.Revokes key session.expires) :
    ((logins lib config url authority).runFrom auth later).sessions.lookup key = some session :=
  (logins lib config url authority).kept (P := fun auth => auth.sessions.lookup key = some session)
    (fun auth x hsession hspares => (turn_real lib auth x).keeps_session hsession (hspares _ List.mem_cons_self))
    hsession later hspares

/-! ### From the login to the visit -/

/-- A request for a login that can begin. -/
structure AsksForLogin (lib : External) (auth : Auth) (x : Exchange) (metadata : Metadata) : Prop where
  method : x.request.method = .get
  path : x.request.path = "/auth/login"
  room : (auth.prune x.answers.entered).flows.size < 64
  healthy : Healthy lib auth x.answers metadata

/-- The callback of a login in the browser that asked for it, with what the provider sends back. -/
structure CompletesLogin (lib : External) (auth : Auth) (x : Exchange) (key : String) (flow : Flow)
    (tokens : TokenResponse) : Prop where
  method : x.request.method = .get
  path : x.request.path = "/auth/callback"
  cookie : auth.presented "flow" x.request = some key
  inTime : x.answers.entered < flow.expires ∧ x.answers.checked < flow.expires
  query : ∃ path query code, Text.splitOnce x.request.url '?' = some (path, query) ∧
    Expected flow (lib.formUrlencoded query) code ∧
    x.answers.exchange flow.client code flow.nonce flow.pkce = .ok tokens
  hash : tokens.Matches
  clock : 0 ≤ x.answers.wall
  good : Good auth.config tokens.claims ⌊x.answers.wall⌋
  room : (auth.prune x.answers.entered).sessions.size < 128

theorem AsksForLogin.begins {auth : Auth} {x : Exchange} {metadata : Metadata}
    (h : AsksForLogin lib auth x metadata) :
    ∃ flow, (turn lib auth x).Begins lib x.answers.key flow ∧ flow.Remembers auth x.answers metadata ∧
      (turn lib auth x).after.flows.lookup x.answers.key = some flow := by
  obtain ⟨loginUrl, flow, hbegun, hremembers⟩ := Auth.beginLogin_of_healthy h.healthy
  have hpruned : (auth.prune x.answers.entered).beginLogin lib x.answers = .ok (loginUrl, x.answers.key, flow) :=
    hbegun
  have hroom := h.room
  have hgate : auth.gate lib x =
      ({ auth.prune x.answers.entered with
          flows := ((auth.prune x.answers.entered).flows.forget (auth.presented "flow" x.request)).insert
            x.answers.key flow },
        .reply (respondWith 303 "text/plain" (.text "")
          [("Location", loginUrl), ("Set-Cookie", auth.cookie "flow" x.answers.key 300)])) := by
    simp only [Auth.gate, h.method, h.path, and_self, if_true]
    rw [Auth.login, if_neg (by omega), hpruned]
    rfl
  have hreply := congrArg Prod.snd hgate
  refine ⟨flow, ⟨⟨h.method, h.path, _, hreply, rfl⟩, ⟨loginUrl, hbegun⟩, _, hreply, ?_⟩, hremembers, ?_⟩
  · exact List.mem_append_right _ (List.mem_cons_of_mem _ List.mem_cons_self)
  · rw [turn, hgate]
    exact AList.lookup_insert _

theorem CompletesLogin.opens {auth : Auth} {x : Exchange} {key : String} {flow : Flow} {tokens : TokenResponse}
    (h : CompletesLogin lib auth x key flow tokens) (hflow : auth.flows.lookup key = some flow) :
    ∃ login, (turn lib auth x).Opens lib x.answers.key login ∧
      Auth.acceptTokens auth.config flow tokens x.answers.wall = .ok login ∧
      (turn lib auth x).after.sessions.lookup x.answers.key =
        some (Auth.sessionOf login x.answers.stored) := by
  obtain ⟨path, query, code, hquery, hexpected, hexchange⟩ := h.query
  obtain ⟨login, haccept⟩ : ∃ login, Auth.acceptTokens auth.config flow tokens x.answers.wall = .ok login :=
    Auth.acceptTokens_of_good h.hash h.clock h.good
  have hcode : Auth.callbackCode lib x.request.url flow x.answers.checked = .ok code :=
    Auth.callbackCode_of_expected h.inTime.2 hquery hexpected
  have hfinished : auth.finishLogin lib x.request.url flow x.answers = .ok login := by
    simp only [Auth.finishLogin, bind_eq_ok]
    exact ⟨code, hcode, tokens, hexchange, haccept⟩
  -- the callback sees the flow, and the settings it finishes the login with are those before it
  let pruned := auth.prune x.answers.entered
  have hcookie : pruned.presented "flow" x.request = some key := h.cookie
  have hpending : pruned.flows.lookup key = some flow := Auth.prune_flows.mpr ⟨hflow, h.inTime.1⟩
  have hresult : Auth.finishLogin lib { pruned with flows := pruned.flows.forget (some key) } x.request.url flow
      x.answers = .ok login := hfinished
  have hgate : auth.gate lib x = ((pruned.callback lib x).1, .reply (pruned.callback lib x).2) := by
    rw [Auth.gate]
    simp only [h.method, h.path, String.reduceEq, and_false, and_self, if_false, if_true, pruned]
  have hanswer : pruned.callback lib x =
      ({ pruned with
          flows := pruned.flows.forget (some key)
          sessions := (pruned.sessions.forget (auth.presented "session" x.request)).insert x.answers.key
            (Auth.sessionOf login x.answers.stored) },
        respondWith 303 "text/plain" (.text "")
          [("Location", "/"), ("Set-Cookie", auth.cookie "session" x.answers.key login.lifetime),
            ("Set-Cookie", auth.cookie "flow" "" 0)]) := by
    simp only [Auth.callback, hcookie, Option.bind_some, hpending, hresult]
    rw [if_pos h.room]
    rfl
  rw [turn, hgate, hanswer]
  exact ⟨login, .of_callback h.method h.path h.cookie hpending hfinished, haccept, AList.lookup_insert _⟩

/-- A login that can begin is begun; if the callback of that browser completes it in time it opens a session, as
long as its token allows but an hour at most, under the name of its claims; and until that is over requests with
its cookie get through the gate. Requests that come in between change nothing about it, unless they present the
cookie of the flow to a login or a callback, or that of the session to a logout or a callback. -/
theorem honest_login_is_admitted (lib : External) (config : Oidc) (url : Url) (authority : String)
    (history : List Exchange) (x : Exchange) (metadata : Metadata)
    (hasks : AsksForLogin lib ((logins lib config url authority).run history) x metadata) :
    let gate := logins lib config url authority
    let begun := turn lib (gate.run history) x
    ∃ flow, begun.Begins lib x.answers.key flow ∧ flow.Remembers begun.before x.answers metadata ∧
      ∀ between, (∀ t ∈ gate.traceFrom begun.after between, t.Spares Turn.Consumes x.answers.key flow.expires) →
        ∀ y tokens, CompletesLogin lib (gate.runFrom begun.after between) y x.answers.key flow tokens →
          let opened := turn lib (gate.runFrom begun.after between) y
          ∃ login, opened.Opens lib y.answers.key login ∧
            (login.lifetime : Int) = min 3600 (tokens.claims.expiration - ⌊y.answers.wall⌋) ∧
            login.username = tokens.claims.shownName ∧
            ∀ later, (∀ t ∈ gate.traceFrom opened.after later,
                t.Spares Turn.Revokes y.answers.key (y.answers.stored + login.lifetime)) →
              ∀ z, (gate.runFrom opened.after later).presented "session" z.request = some y.answers.key →
                z.answers.entered < y.answers.stored + login.lifetime →
                  Text.startsWith z.request.path "/auth/" = false →
                    (turn lib (gate.runFrom opened.after later) z).outcome = .forward := by
  intro gate begun
  obtain ⟨flow, hbegins, hremembers, hflow⟩ := hasks.begins
  refine ⟨flow, hbegins, hremembers, fun between hspares y tokens hcompletes => ?_⟩
  intro opened
  have hpending := flow_kept hflow between hspares
  obtain ⟨login, hopens, haccept, hsession⟩ := hcompletes.opens hpending
  obtain ⟨-, -, hlifetime, husername, -⟩ := Auth.acceptTokens_spec haccept
  refine ⟨login, hopens, hlifetime, husername, fun later hspares z hpresented hintime hbehind => ?_⟩
  have hlive := session_spared hsession later hspares
  exact Auth.gate_forward_of_session hpresented hlive hintime hbehind

/-! ### Among strangers

Another browser asks for a login before the callback, and a third one makes up a session key after it. -/

namespace AmongStrangers

def metadata : Metadata := ⟨"https://id/", "https://id/", some "https://id/", "https://id/"⟩

def asks : Exchange := LateVisit.exchangeAt 990 "k1" "/auth/login" ""

def rival : Exchange := LateVisit.exchangeAt 995 "k7" "/auth/login" ""

def guess : Exchange := LateVisit.exchangeAt (3999 / 4) "k8" "/" "__Host-syslog_session=k0"

def visit : Exchange := LateVisit.exchangeAt 1000 "k9" "/api/status" "__Host-syslog_session=k2"

def gate : Machine Auth Exchange Turn := logins LateVisit.parsers LateVisit.settings LateVisit.address "agent.example"

theorem httpUrl_ok (text : String) : httpUrl LateVisit.parsers text = .ok LateVisit.address := rfl

theorem healthy : Healthy LateVisit.parsers (gate.run []) asks.answers metadata where
  discovery := rfl
  document := ⟨.null, rfl⟩
  issuer := ⟨_, httpUrl_ok _, rfl⟩
  keys := ⟨rfl, rfl⟩
  authorization := rfl
  token := ⟨_, rfl, rfl⟩
  redirect := rfl

theorem completes {auth : Auth} {flow : Flow} (hconfig : auth.config = LateVisit.settings)
    (hcookie : auth.presented "flow" LateVisit.callback.request = some "k1")
    (hroom : (auth.prune LateVisit.callback.answers.entered).sessions.size < 128)
    (hremembers : flow.Remembers (gate.run []) asks.answers metadata) :
    CompletesLogin LateVisit.parsers auth LateVisit.callback "k1" flow LateVisit.tokens where
  method := rfl
  path := by decide +kernel
  cookie := hcookie
  inTime := by
    rw [hremembers.expires]
    norm_num [LateVisit.callback, asks, LateVisit.exchangeAt]
  query := by
    refine ⟨"/auth/callback", "state=s", "c", by decide, ⟨by decide, ?_, by decide, fun iss hiss => ?_, by decide⟩, rfl⟩
    · rw [hremembers.state]
      exact List.mem_cons_self
    · simp [LateVisit.parsers] at hiss
  hash := fun expected h => by cases h
  clock := by norm_num [LateVisit.callback, LateVisit.exchangeAt]
  good := by
    rw [hconfig]
    have hfloor : ⌊LateVisit.callback.answers.wall⌋ = 999 := by norm_num [LateVisit.callback, LateVisit.exchangeAt]
    rw [hfloor]
    refine ⟨⟨.string "admin", rfl, .single (by decide) (by decide)⟩, ?_, by decide, ?_, by decide⟩
    · exact fun party h => by cases h
    · exact fun nbf h => by cases h
  room := hroom

theorem config_run (history : List Exchange) : (gate.run history).config = LateVisit.settings :=
  gate.invariant (P := fun auth => auth.config = LateVisit.settings) rfl
    (fun auth x hconfig => (Auth.config_eq (turn_real LateVisit.parsers auth x).settings).trans hconfig) history

theorem spares_rival {auth : Auth} {flow : Flow} (hremembers : flow.Remembers (gate.run []) asks.answers metadata)
    (hpresents : (turn LateVisit.parsers auth rival).presents "flow" = none) :
    (turn LateVisit.parsers auth rival).Spares Turn.Consumes "k1" flow.expires where
  inTime := by
    rw [hremembers.expires]
    norm_num [turn, rival, asks, LateVisit.exchangeAt]
  drawn := by
    show "k7" ≠ "k1"
    decide
  spared := fun hconsumes => by cases hpresents.symm.trans hconsumes.1

end AmongStrangers

theorem honest_login_is_admitted_among_strangers :
    (turn LateVisit.parsers (AmongStrangers.gate.run
      [AmongStrangers.asks, AmongStrangers.rival, LateVisit.callback, AmongStrangers.guess])
        AmongStrangers.visit).outcome = .forward := by
  have hasks : AsksForLogin LateVisit.parsers (AmongStrangers.gate.run []) AmongStrangers.asks
      AmongStrangers.metadata := ⟨rfl, by decide +kernel, by decide +kernel, AmongStrangers.healthy⟩
  obtain ⟨flow, -, hremembers, hadmits⟩ := honest_login_is_admitted LateVisit.parsers LateVisit.settings
    LateVisit.address "agent.example" [] AmongStrangers.asks AmongStrangers.metadata hasks
  have hrival : ∀ t ∈ AmongStrangers.gate.traceFrom (AmongStrangers.gate.run [AmongStrangers.asks])
      [AmongStrangers.rival], t.Spares Turn.Consumes "k1" flow.expires := by
    intro t ht
    rw [List.mem_singleton.mp ht]
    exact AmongStrangers.spares_rival hremembers (by decide +kernel)
  have hcompletes : CompletesLogin LateVisit.parsers
      (AmongStrangers.gate.run [AmongStrangers.asks, AmongStrangers.rival]) LateVisit.callback "k1" flow
      LateVisit.tokens :=
    AmongStrangers.completes (AmongStrangers.config_run _) (by decide +kernel) (by decide +kernel) hremembers
  obtain ⟨login, -, hlifetime, -, hlater⟩ := hadmits [AmongStrangers.rival] hrival LateVisit.callback LateVisit.tokens
    hcompletes
  have hlifetime : login.lifetime = 1 := by
    have hfloor : ⌊LateVisit.callback.answers.wall⌋ = 999 := by norm_num [LateVisit.callback, LateVisit.exchangeAt]
    rw [hfloor] at hlifetime
    have hexpiration : LateVisit.tokens.claims.expiration = 1000 := rfl
    omega
  refine hlater [AmongStrangers.guess] (fun t ht => ?_) AmongStrangers.visit (by decide +kernel) ?_ (by decide +kernel)
  · rw [List.mem_singleton.mp ht]
    refine ⟨?_, ?_, fun hrevokes => ?_⟩
    · rw [hlifetime]
      norm_num [turn, AmongStrangers.guess, LateVisit.callback, LateVisit.exchangeAt]
    · show "k8" ≠ "k2"
      decide
    · have hpresents := hrevokes.1
      revert hpresents
      decide +kernel
  · rw [hlifetime]
    norm_num [AmongStrangers.visit, LateVisit.callback, LateVisit.exchangeAt]

end SyslogDtlsAgent
