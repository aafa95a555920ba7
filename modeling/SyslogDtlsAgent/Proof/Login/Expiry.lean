import SyslogDtlsAgent.Proof.Login.Cookies
import SyslogDtlsAgent.Proof.Login.Handoff

/-!
# Sessions and the expiry of their tokens

`finish_login` takes the lifetime of a session from the wall clock in whole seconds, rounded down, and the
callback counts it from a later reading of the monotonic clock. Both roundings lengthen the session, so one
that is not capped at an hour is still admitted a little after its token has expired.
-/

namespace SyslogDtlsAgent

open Library

variable {lib : External}

/-- The readings of one request in the order they are taken. Both clocks run at one speed and are `epoch`
apart. -/
structure Clocked (epoch : ℚ) (answers : Answers) : Prop where
  checked : answers.entered ≤ answers.checked
  wall : epoch + answers.checked ≤ answers.wall
  stored : answers.wall ≤ epoch + answers.stored

/-- A callback that redeems its flow for tokens and stores the session of the login they stand for. -/
structure Turn.OpensFrom (lib : External) (t : Turn) (key : String) (tokens : TokenResponse) : Prop where
  drawn : t.exchange.answers.key = key
  redeemed : ∃ flowKey flow code login, t.presents "flow" = some flowKey ∧
    t.before.flows.lookup flowKey = some flow ∧
    t.exchange.answers.exchange flow.client code flow.nonce flow.pkce = .ok tokens ∧
    Auth.acceptTokens t.before.config flow tokens t.exchange.answers.wall = .ok login ∧
    t.after.sessions.lookup key = some (Auth.sessionOf login t.exchange.answers.stored)

/-- Every session of a state comes from tokens. -/
theorem Turn.Real.opensFrom {t : Turn} (h : t.Real lib) {key : String} {session : Session}
    (hlive : t.after.sessions.lookup key = some session) :
    (∃ tokens, t.OpensFrom lib key tokens) ∨ t.before.sessions.lookup key = some session := by
  rcases h.sessions hlive with ⟨hdrawn, login, hopens, rfl⟩ | ⟨hbefore, -⟩
  · obtain ⟨flowKey, flow, -, -, code, tokens, hpresents, hflow, -, -, -, htokens, haccept⟩ := hopens.redeemed
    exact .inl ⟨tokens, hdrawn, flowKey, flow, code, login, hpresents, hflow, htokens, haccept, hlive⟩
  · exact .inr hbefore

/-- The session of a token ends when the lifetime that `finish_login` computed is over. -/
theorem Turn.OpensFrom.expires {t : Turn} {key : String} {tokens : TokenResponse}
    (h : t.OpensFrom lib key tokens) : ∃ session, t.after.sessions.lookup key = some session ∧
      session.expires = t.exchange.answers.stored +
        min 3600 ((tokens.claims.expiration : ℚ) - ⌊t.exchange.answers.wall⌋) ∧
      t.exchange.answers.stored < session.expires := by
  obtain ⟨flowKey, flow, code, login, -, -, -, haccept, hlive⟩ := h.redeemed
  obtain ⟨-, hgood, hlifetime, -⟩ := Auth.acceptTokens_spec haccept
  have hcast : (login.lifetime : ℚ) =
      min 3600 ((tokens.claims.expiration : ℚ) - ⌊t.exchange.answers.wall⌋) := by
    have h := congrArg (fun n : ℤ => (n : ℚ)) hlifetime
    push_cast at h
    exact h
  have hpositive : 0 < login.lifetime := by
    have := hgood.expiry
    omega
  refine ⟨_, hlive, ?_, ?_⟩
  · rw [Auth.sessionOf, hcast]
  · rw [Auth.sessionOf]
    have : (0 : ℚ) < login.lifetime := by exact_mod_cast hpositive
    linarith

/-- A request is admitted only while the session of its key lasts. -/
theorem admits_live {auth : Auth} {x : Exchange} {key : String} (h : (turn lib auth x).Admits key) :
    ∃ session, auth.sessions.lookup key = some session ∧ x.answers.entered < session.expires := by
  obtain ⟨hpresents, hforward | ⟨username, hshows⟩⟩ := h
  · obtain ⟨key', session, hkey, hlive, hexpires⟩ := Auth.gate_forward hforward
    obtain rfl : key' = key := Option.some.inj (hkey.symm.trans hpresents)
    exact ⟨session, hlive, hexpires⟩
  · obtain ⟨key', session, hkey, hlive, hexpires, -⟩ := Auth.gate_shows hshows
    obtain rfl : key' = key := Option.some.inj (hkey.symm.trans hpresents)
    exact ⟨session, hlive, hexpires⟩

/-- A visit of the start page with the key of a session that lasts is let through. -/
theorem gate_forwards {auth : Auth} {x : Exchange} {key : String} {session : Session}
    (hurl : x.request.url = "/") (hkey : auth.presented "session" x.request = some key)
    (hlive : auth.sessions.lookup key = some session) (hexpires : x.answers.entered < session.expires) :
    (turn lib auth x).Admits key := by
  refine ⟨hkey, .inl (Auth.gate_forward_of_session hkey hlive hexpires ?_)⟩
  rw [Request.path, hurl]
  decide +kernel

variable {config : Oidc} {url : Url} {authority : String}

/-- While its key is not drawn again, a session that is there was there before. -/
theorem session_kept {key : String} {session : Session} {later : List Exchange}
    (hfresh : ∀ z ∈ later, z.answers.key ≠ key) {auth : Auth}
    (hlive : ((logins lib config url authority).runFrom auth later).sessions.lookup key = some session) :
    auth.sessions.lookup key = some session := by
  induction later generalizing auth with
  | nil => exact hlive
  | cons z later ih =>
      have hnext := ih (fun z hz => hfresh z (List.mem_cons_of_mem _ hz)) hlive
      rcases (turn_real lib auth z).sessions hnext with ⟨hdrawn, -⟩ | ⟨hbefore, -⟩
      · exact absurd hdrawn (hfresh z List.mem_cons_self)
      · exact hbefore

/-- Whoever is let in by the session of a callback is let in before the expiry of its token and within an
hour, whatever requests come in between. -/
def EndsInTime (lib : External) (config : Oidc) (url : Url) (authority : String) (history : List Exchange)
    (x : Exchange) (epoch : ℚ) (key : String) (expiration : Int) : Prop :=
  ∀ later y, (∀ z ∈ later, z.answers.key ≠ key) → x.answers.stored ≤ y.answers.entered →
    (turn lib ((logins lib config url authority).run (history ++ x :: later)) y).Admits key →
      epoch + y.answers.entered < expiration ∧ y.answers.entered < x.answers.stored + 3600

theorem run_after_turn (lib : External) (config : Oidc) (url : Url) (authority : String)
    (history later : List Exchange) (x : Exchange) :
    (logins lib config url authority).run (history ++ x :: later) =
      (logins lib config url authority).runFrom
        (turn lib ((logins lib config url authority).run history) x).after later := by
  rw [Machine.run_append, Machine.runFrom_cons]
  rfl

/-- A session ends in time exactly if its token is good for an hour when the callback stores the session,
or if no time at all has passed since a reading of the wall clock that fell on a whole second. -/
theorem session_ends_in_time_iff (lib : External) (config : Oidc) (url : Url) (authority : String)
    (history : List Exchange) (x : Exchange) (epoch : ℚ) (key : String) (tokens : TokenResponse)
    (hopens : (turn lib ((logins lib config url authority).run history) x).OpensFrom lib key tokens)
    (hclock : Clocked epoch x.answers) (hkey : RandomKey key) :
    EndsInTime lib config url authority history x epoch key tokens.claims.expiration ↔
      epoch + x.answers.stored + 3600 ≤ tokens.claims.expiration ∨
        epoch + x.answers.stored = ⌊x.answers.wall⌋ := by
  obtain ⟨session, hlive, hexpires, hlasts⟩ := hopens.expires
  have hexpires : session.expires = x.answers.stored +
    min 3600 ((tokens.claims.expiration : ℚ) - ⌊x.answers.wall⌋) := hexpires
  have hfloor : (⌊x.answers.wall⌋ : ℚ) ≤ epoch + x.answers.stored :=
    (Int.floor_le _).trans hclock.stored
  constructor
  · intro hends
    by_contra hcondition
    push Not at hcondition
    obtain ⟨hsoon, hpassed⟩ := hcondition
    have hbehind : (⌊x.answers.wall⌋ : ℚ) < epoch + x.answers.stored := lt_of_le_of_ne hfloor hpassed.symm
    -- a visit at the expiry of the token, or right away if that is over
    have hkind : "session" ∈ cookieKinds := by decide
    let after := (turn lib ((logins lib config url authority).run history) x).after
    let bad := max x.answers.stored ((tokens.claims.expiration : ℚ) - epoch)
    let visit : Exchange := ⟨⟨.get, "/", [("Cookie", Part.render [Part.issued after hkind hkey])], none, none⟩,
      { x.answers with entered := bad }⟩
    have hbad : bad < session.expires := by
      apply max_lt hlasts
      rw [hexpires]
      rcases min_choice 3600 ((tokens.claims.expiration : ℚ) - ⌊x.answers.wall⌋) with h | h <;> rw [h] <;>
        linarith
    have hadmits : (turn lib ((logins lib config url authority).run (history ++ [x])) visit).Admits key := by
      rw [run_after_turn]
      exact gate_forwards rfl (presented_issued after hkind hkey "/") hlive hbad
    have hbefore := (hends [] visit (fun z hz => absurd hz List.not_mem_nil) (le_max_left _ _) hadmits).1
    have hreached : (tokens.claims.expiration : ℚ) - epoch ≤ bad := le_max_right _ _
    have hbefore : epoch + bad < tokens.claims.expiration := hbefore
    linarith
  · intro hcondition later y hfresh hlater hadmits
    obtain ⟨found, hfound, hlasting⟩ := admits_live hadmits
    rw [run_after_turn] at hfound
    have hsame : found = session := Option.some.inj ((session_kept hfresh hfound).symm.trans hlive)
    rw [hsame, hexpires] at hlasting
    have hhour := min_le_left 3600 ((tokens.claims.expiration : ℚ) - ⌊x.answers.wall⌋)
    have htoken := min_le_right 3600 ((tokens.claims.expiration : ℚ) - ⌊x.answers.wall⌋)
    constructor
    · rcases hcondition with hgood | hexact
      · linarith
      · linarith
    · linarith

/-! ### A late visit

A login at half past a second, with a token that expires half a second later. -/

namespace LateVisit

def address : Url := ⟨"https", "", none, some "agent.example", "/", none, none, "https://agent.example"⟩

def parsers : External where
  rfc3339 _ := false
  domainToAsciiStrict _ := none
  urlParse _ := some address
  formUrlencoded _ := [("state", "s"), ("code", "c")]

def settings : Oidc := { Oidc.default with enabled := true, clientId := "agent", requiredGroup := "admin" }

def tokens : TokenResponse :=
  ⟨"token", ⟨none, [("groups", .string "admin")], none, 0, 1000, none, none, "alice"⟩, .ok ""⟩

def exchangeAt (now : Instant) (key path cookie : String) : Exchange where
  request := ⟨.get, path, [("Cookie", cookie)], none, none⟩
  answers :=
    { entered := now
      checked := now
      stored := now
      wall := now
      key := key
      state := "s"
      nonce := "n"
      pkce := "v"
      discovery := some ⟨200, some .null, some ⟨"https://id/", "https://id/", some "https://id/", "https://id/"⟩⟩
      keySet := some ()
      authorizeUrl := fun _ _ _ _ _ => "https://id/"
      exchange := fun _ _ _ _ => .ok tokens }

def history : List Exchange := [exchangeAt 990 "k1" "/auth/login" ""]

def callback : Exchange := exchangeAt (1999 / 2) "k2" "/auth/callback?state=s" "__Host-syslog_flow=k1"

def visit : Exchange := exchangeAt (4001 / 4) "k3" "/" "__Host-syslog_session=k2"

def forwards : Outcome → Bool
  | .forward => true
  | _ => false

theorem opensFrom :
    (turn parsers ((logins parsers settings address "agent.example").run history) callback).OpensFrom parsers
      "k2" tokens := by
  have hafter : ((turn parsers ((logins parsers settings address "agent.example").run history)
      callback).after.sessions.lookup "k2").isSome = true := by
    decide +kernel
  have hbefore : (((logins parsers settings address "agent.example").run history).sessions.lookup
      "k2").isSome = false := by
    decide +kernel
  obtain ⟨session, hsession⟩ := Option.isSome_iff_exists.mp hafter
  rcases (turn_real parsers _ callback).opensFrom hsession with ⟨redeemed, hopens⟩ | hold
  · obtain ⟨flowKey, flow, code, login, hpresents, hflow, hredeemed, hrest⟩ := hopens.redeemed
    obtain rfl : tokens = redeemed := Except.ok.inj hredeemed
    exact ⟨hopens.drawn, flowKey, flow, code, login, hpresents, hflow, hredeemed, hrest⟩
  · have hold : ((logins parsers settings address "agent.example").run history).sessions.lookup "k2" =
        some session := hold
    rw [hold] at hbefore
    cases hbefore

theorem clocked : Clocked 0 callback.answers := by
  constructor <;> simp [callback, exchangeAt]

theorem randomKey : RandomKey "k2" := by
  constructor
  · intro c hc
    have hall : "k2".toList.all Text.isAsciiAlphanumeric = true := by decide
    exact .inl (List.all_eq_true.mp hall c hc)
  · decide

end LateVisit

/-- A quarter of a second after the expiry of its token, a session still lets its browser in. -/
theorem session_ends_in_time_fails : ¬∀ lib config url authority history x epoch key tokens,
    (turn lib ((logins lib config url authority).run history) x).OpensFrom lib key tokens →
      Clocked epoch x.answers → RandomKey key →
        EndsInTime lib config url authority history x epoch key tokens.claims.expiration := by
  intro hall
  have hends := hall LateVisit.parsers LateVisit.settings LateVisit.address "agent.example" LateVisit.history
    LateVisit.callback 0 "k2" LateVisit.tokens LateVisit.opensFrom LateVisit.clocked LateVisit.randomKey
  let late := turn LateVisit.parsers
    ((logins LateVisit.parsers LateVisit.settings LateVisit.address "agent.example").run
      (LateVisit.history ++ [LateVisit.callback])) LateVisit.visit
  have hpresents : late.presents "session" = some "k2" := by decide +kernel
  have hforward : LateVisit.forwards late.outcome = true := by decide +kernel
  have hadmits : late.Admits "k2" := by
    refine ⟨hpresents, .inl ?_⟩
    cases houtcome : late.outcome with
    | forward => rfl
    | reply | panic =>
        rw [houtcome] at hforward
        cases hforward
  have hlater : LateVisit.callback.answers.stored ≤ LateVisit.visit.answers.entered := by
    norm_num [LateVisit.callback, LateVisit.visit, LateVisit.exchangeAt]
  have hbefore := (hends [] LateVisit.visit (fun z hz => absurd hz List.not_mem_nil) hlater hadmits).1
  norm_num [LateVisit.visit, LateVisit.exchangeAt, LateVisit.tokens] at hbefore

/-- At that login the condition decides against it. -/
theorem session_ends_in_time_iff_late :
    ¬EndsInTime LateVisit.parsers LateVisit.settings LateVisit.address "agent.example" LateVisit.history
      LateVisit.callback 0 "k2" 1000 := by
  have hiff := session_ends_in_time_iff LateVisit.parsers LateVisit.settings LateVisit.address "agent.example"
    LateVisit.history LateVisit.callback 0 "k2" LateVisit.tokens LateVisit.opensFrom LateVisit.clocked
    LateVisit.randomKey
  intro hends
  have hfloor : ⌊(1999 / 2 : ℚ)⌋ = 999 := by norm_num
  have hcondition := hiff.mp hends
  norm_num [LateVisit.callback, LateVisit.exchangeAt, LateVisit.tokens, hfloor] at hcondition

end SyslogDtlsAgent
