import SyslogDtlsAgent.Proof.Login.Sessions

/-!
# Login flows

A pending flow goes back to the login that began it, and no callback has presented its key since. A
session opens only on a pending flow and the callback takes the flow away, so the login of a session
is a function of the session, and no two sessions share one.
-/

namespace SyslogDtlsAgent

open Library

variable {lib : External}

namespace Turn

/-- A login that sends the browser to the provider and gives it the key of the flow. -/
structure Begins (lib : External) (t : Turn) (key : String) (flow : Flow) : Prop where
  answered : t.Answered .get "/auth/login" 303
  begun : ∃ url, t.before.beginLogin lib t.exchange.answers = .ok (url, key, flow)
  issued : t.SetsCookie "flow" key 300

def IsCallback (t : Turn) : Prop :=
  t.exchange.request.method = .get ∧ t.exchange.request.path = "/auth/callback"

/-- A callback or a new login by whoever presents the key of the flow. -/
def Consumes (t : Turn) (key : String) : Prop :=
  t.presents "flow" = some key ∧ (t.IsCallback ∨ t.Answered .get "/auth/login" 303)

/-- What a turn does to flows: each one it leaves was begun by it, or was there and not consumed. -/
theorem Real.flows {t : Turn} (h : t.Real lib) {key : String} {flow : Flow}
    (hpending : t.after.flows.lookup key = some flow) :
    t.Begins lib key flow ∨ t.before.flows.lookup key = some flow ∧ ¬t.Consumes key := by
  obtain ⟨before, x, after, outcome⟩ := t
  change Auth.Passage lib (before.prune x.answers.entered) x after outcome at h
  change after.flows.lookup key = some flow at hpending
  have hkept (hflows : after.flows = (before.prune x.answers.entered).flows)
      (hcallback : ¬IsCallback ⟨before, x, after, outcome⟩)
      (hlogin : ¬Answered ⟨before, x, after, outcome⟩ .get "/auth/login" 303) :
      before.flows.lookup key = some flow ∧ ¬Consumes ⟨before, x, after, outcome⟩ key := by
    rw [hflows] at hpending
    exact ⟨(Auth.prune_flows.mp hpending).1, fun hconsumes => hconsumes.2.elim hcallback hlogin⟩
  -- the flow of the request is the only one a turn can consume, and these turns take it away
  have hforgot (hflows : ((before.prune x.answers.entered).flows.forget
        (before.presented "flow" x.request)).lookup key = some flow) :
      before.flows.lookup key = some flow ∧ ¬Consumes ⟨before, x, after, outcome⟩ key := by
    obtain ⟨hother, hpending⟩ := AList.lookup_forget_eq_some.mp hflows
    exact ⟨(Auth.prune_flows.mp hpending).1, fun hconsumes => hother hconsumes.1⟩
  cases h with
  | login hmethod hpath hroom hbegin =>
      rw [AList.lookup_insert'] at hpending
      split at hpending
      · rename_i hnew
        cases hpending
        subst hnew
        refine .inl ⟨⟨hmethod, hpath, _, rfl, rfl⟩, ⟨_, hbegin⟩, _, rfl, ?_⟩
        exact List.mem_append_right _ (List.mem_cons_of_mem _ List.mem_cons_self)
      · exact .inr (hforgot hpending)
  | callback | denied => exact .inr (hforgot hpending)
  | noLogin hmethod hpath hplain hcode =>
      exact .inr (hkept rfl (by simp [IsCallback, hpath]) (by simp [Answered, hcode]))
  | noHandoff hmethod hpath | handoff hmethod hpath | badEndpoint hmethod hpath | identity hmethod hpath
  | signOut hmethod hpath | signOutAtProvider hmethod hpath =>
      exact .inr (hkept rfl (by simp [IsCallback, hpath]) (by simp [Answered, hpath]))
  | answered hplain hlogin hcallback | forward hlogin hcallback =>
      exact .inr (hkept rfl hcallback fun hanswered => hlogin ⟨hanswered.1, hanswered.2.1⟩)

/-- A callback takes away the flow whose key it presents, whatever comes of it. -/
theorem Real.consumes {t : Turn} (h : t.Real lib) (hcallback : t.IsCallback) {key : String}
    (hkey : t.presents "flow" = some key) : key ∉ t.after.flows := by
  intro hin
  obtain ⟨flow, hflow⟩ := AList.mem_iff_lookup.mp hin
  rcases h.flows hflow with hbegins | ⟨-, hkept⟩
  · have hpath := hbegins.answered.2.1
    rw [hcallback.2] at hpath
    exact absurd hpath (by decide)
  · exact hkept ⟨hkey, .inl hcallback⟩

/-- A session is there after the turn that was not there before, or a callback was answered as one
that opened a session. -/
def InsertsSession (t : Turn) : Prop :=
  (∃ key session, t.after.sessions.lookup key = some session ∧ t.before.sessions.lookup key ≠ some session) ∨
    t.Answered .get "/auth/callback" 303

theorem Real.opens {t : Turn} (h : t.Real lib) (hinserts : t.InsertsSession) :
    ∃ key login, t.Opens lib key login := by
  rcases hinserts with ⟨key, session, hafter, hnew⟩ | hanswered
  · rcases h.sessions hafter with ⟨-, login, hopens, -⟩ | ⟨hold, -⟩
    · exact ⟨key, login, hopens⟩
    · exact absurd hold hnew
  · exact h.opens_of_answered hanswered

theorem Begins.key_unique {t : Turn} {key other : String} {flow flow' : Flow} (h : t.Begins lib key flow)
    (h' : t.Begins lib other flow') : key = other := by
  obtain ⟨url, hbegun⟩ := h.begun
  obtain ⟨url', hbegun'⟩ := h'.begun
  rw [hbegun] at hbegun'
  cases hbegun'
  rfl

end Turn

variable {config : Oidc} {url : Url} {authority : String}

/-- The history behind a pending flow. -/
theorem flow_issued (history : List Exchange) (key : String) (flow : Flow)
    (hpending : ((logins lib config url authority).run history).flows.lookup key = some flow) :
    Issued (fun t (entry : String × Flow) => t.Begins lib entry.1 entry.2) (fun t entry => t.Consumes entry.1)
      ((logins lib config url authority).trace history) (key, flow) := by
  refine (logins lib config url authority).provenance
    (fun auth entry => auth.flows.lookup entry.1 = some entry.2) ?_ ?_ history (key, flow) hpending
  · rintro ⟨key, flow⟩ hpending
    simp [logins, Auth.start] at hpending
  · rintro auth x ⟨key, flow⟩ hpending
    rcases (turn_real lib auth x).flows hpending with hbegins | ⟨hbefore, hkept⟩
    · exact .inl ⟨[], _, rfl, hbegins⟩
    · refine .inr ⟨hbefore, fun t ht => ?_⟩
      rw [List.mem_singleton.mp ht]
      exact hkept

/-- A callback at position `j` of a history that carries out the login begun at position `i`. -/
structure CarriesOut (lib : External) (config : Oidc) (turns : List Turn) (i j : Nat) (t : Turn) : Prop where
  earlier : i < j
  callback : t.IsCallback
  /-- The flow cookie holds the key of that login, which nobody has presented since, and the code of the query
  is exchanged by the client of that flow. -/
  flow : ∃ begin key flow, turns[i]? = some begin ∧ begin.Begins lib key flow ∧
    t.presents "flow" = some key ∧
    (∀ m u, i < m → m < j → turns[m]? = some u → ¬u.Consumes key) ∧
    t.exchange.answers.checked < begin.exchange.answers.stored + 300 ∧
    ∃ path query code tokens, Text.splitOnce t.exchange.request.url '?' = some (path, query) ∧
      Expected flow (lib.formUrlencoded query) code ∧
      t.exchange.answers.exchange flow.client code flow.nonce flow.pkce = .ok tokens ∧
      0 ≤ t.exchange.answers.wall ∧ Good config tokens.claims ⌊t.exchange.answers.wall⌋

theorem carriesOut_of_inserts {history : List Exchange} {j : Nat} {t : Turn}
    (ht : ((logins lib config url authority).trace history)[j]? = some t) (hinserts : t.InsertsSession) :
    ∃ i, CarriesOut lib config ((logins lib config url authority).trace history) i j t := by
  obtain ⟨hreal, hbefore, -⟩ := turn_at ht
  obtain ⟨key, login, hopens⟩ := hreal.opens hinserts
  obtain ⟨flowKey, flow, path, query, code, tokens, hpresents, hflow, hchecked, hquery, hexpected, htokens, haccept⟩ :=
    hopens.redeemed
  obtain ⟨hwall, hgood, -⟩ := Auth.acceptTokens_spec haccept
  have hconfig : t.before.config = config :=
    Auth.config_eq (real_of_mem_trace (List.mem_of_getElem? ht)).2
  rw [hbefore] at hflow
  obtain ⟨i, begin, hearlier, hbegin, hbegins, hsince⟩ :=
    issued_before ht (flow_issued (history.take j) flowKey flow hflow)
  obtain ⟨loginUrl, hbegun⟩ := hbegins.begun
  refine ⟨i, hearlier, ⟨hopens.answered.1, hopens.answered.2.1⟩, begin, flowKey, flow, hbegin, hbegins,
    hpresents, hsince, ?_, path, query, code, tokens, hquery, hexpected, htokens, hwall, hconfig ▸ hgood⟩
  rw [← (Auth.beginLogin_spec hbegun).2.2.1]
  exact hchecked

/-- Two callbacks do not carry out one login: the first would have presented the key of the second. -/
theorem CarriesOut.unique {turns : List Turn} {o i j : Nat} {s t : Turn} (hi : turns[i]? = some s)
    (hs : CarriesOut lib config turns o i s) (ht : CarriesOut lib config turns o j t) : ¬i < j := by
  intro hlt
  obtain ⟨begin, key, flow, hbegin, hbegins, hpresents, -⟩ := hs.flow
  obtain ⟨begin', key', flow', hbegin', hbegins', -, hsince, -⟩ := ht.flow
  obtain rfl : begin = begin' := Option.some.inj (hbegin.symm.trans hbegin')
  obtain rfl := hbegins.key_unique hbegins'
  exact hsince i s hs.earlier hlt hi ⟨hpresents, .inl hs.callback⟩

theorem sessions_come_from_single_use_logins (lib : External) (config : Oidc) (url : Url) (authority : String)
    (history : List Exchange) :
    let turns := (logins lib config url authority).trace history
    (∃ origin : Nat → Nat,
      (∀ j t, turns[j]? = some t → t.InsertsSession → CarriesOut lib config turns (origin j) j t) ∧
      ∀ i j s t, turns[i]? = some s → turns[j]? = some t → s.InsertsSession → t.InsertsSession →
        origin i = origin j → i = j) ∧
    ∀ t ∈ turns, t.IsCallback → ∀ key, t.presents "flow" = some key → key ∉ t.after.flows := by
  intro turns
  refine ⟨?_, fun t ht hcallback key hkey => (real_of_mem_trace ht).1.consumes hcallback hkey⟩
  have horigin : ∀ j, ∃ i, ∀ t, turns[j]? = some t → t.InsertsSession →
      CarriesOut lib config turns i j t := by
    intro j
    by_cases h : ∃ t, turns[j]? = some t ∧ t.InsertsSession
    · obtain ⟨t, ht, hinserts⟩ := h
      obtain ⟨i, hcarries⟩ := carriesOut_of_inserts ht hinserts
      refine ⟨i, fun t' ht' _ => ?_⟩
      obtain rfl : t = t' := Option.some.inj (ht.symm.trans ht')
      exact hcarries
    · exact ⟨0, fun t ht hinserts => absurd ⟨t, ht, hinserts⟩ h⟩
  choose origin horigin using horigin
  refine ⟨origin, horigin, fun i j s t hs ht hsInserts htInserts hsame => ?_⟩
  have hi := horigin i s hs hsInserts
  have hj := horigin j t ht htInserts
  rw [hsame] at hi
  rcases Nat.lt_trichotomy i j with hlt | heq | hgt
  · exact absurd hlt (hi.unique hs hj)
  · exact heq
  · exact absurd hgt (hj.unique ht hi)

end SyslogDtlsAgent
