import SyslogDtlsAgent.Proof.Login.Gate

/-!
# What a finished login has passed

`finishLogin` is a chain of checks, each of which stops it. The chain read backwards: a login comes out
only if the query is the one the flow waits for and the claims are good at the moment of the check.
-/

namespace SyslogDtlsAgent

open Library

/-! ### Groups -/

/-- A claim that names the required group. -/
inductive Carries (required : String) : Json → Prop where
  | single (hne : required ≠ "") (hcomma : ',' ∉ required.toList) : Carries required (.string required)
  /-- A string with a comma is a list. -/
  | listed {groups part : String} (hne : required ≠ "") (hcomma : ',' ∈ groups.toList)
      (hpart : part ∈ Text.split groups ',') (htrim : Text.trim part = required) :
      Carries required (.string groups)
  | member {groups : List Json} (hstrings : ∀ g ∈ groups, ∃ s, g = .string s)
      (hmem : .string required ∈ groups) : Carries required (.array groups)

theorem Json.asStr_eq_some {value : Json} {s : String} : value.asStr = some s ↔ value = .string s := by
  cases value <;> simp [Json.asStr]

theorem Json.isString_iff {value : Json} : value.isString = true ↔ ∃ s, value = .string s := by
  rw [Json.isString, Option.isSome_iff_exists]
  exact exists_congr fun s => Json.asStr_eq_some

theorem stringHasGroup_iff {groups required : String} :
    stringHasGroup groups required = true ↔ Carries required (.string groups) := by
  unfold stringHasGroup
  constructor
  · intro h
    split at h
    · cases h
    · rename_i hne
      have hne : required ≠ "" := by simpa using hne
      split at h
      · rename_i hcomma
        simp only [List.any_map, List.any_eq_true, Function.comp_apply, Bool.and_eq_true,
          beq_iff_eq] at h
        obtain ⟨part, hpart, -, htrim⟩ := h
        exact .listed hne (List.contains_iff_mem.mp hcomma) hpart htrim
      · rename_i hcomma
        obtain rfl : groups = required := by simpa using h
        exact .single hne fun hmem => hcomma (List.contains_iff_mem.mpr hmem)
  · intro h
    cases h with
    | single hne hcomma =>
        have hcomma : Text.containsChar groups ',' = false := by
          rw [Text.containsChar, List.contains_eq_mem, decide_eq_false hcomma]
        simp [hne, hcomma]
    | @listed _ part hne hcomma hpart htrim =>
        have hcomma : Text.containsChar groups ',' = true := List.contains_iff_mem.mpr hcomma
        simp only [hne, beq_iff_eq, if_false, hcomma, if_true, List.any_map, List.any_eq_true,
          Function.comp_apply, Bool.and_eq_true, bne_iff_ne]
        exact ⟨part, hpart, by rw [htrim]; exact hne, htrim⟩

theorem hasGroup_iff {value : Option Json} {required : String} :
    hasGroup value required = true ↔ ∃ claim, value = some claim ∧ Carries required claim := by
  cases value with
  | none => simp [hasGroup]
  | some claim =>
      simp only [Option.some.injEq, exists_eq_left']
      cases claim with
      | string groups => exact stringHasGroup_iff
      | array groups =>
          simp only [hasGroup, Bool.and_eq_true, List.all_eq_true, List.any_eq_true, beq_iff_eq,
            Json.isString_iff, Json.asStr_eq_some, exists_eq_right]
          constructor
          · rintro ⟨hstrings, hmem⟩
            exact .member hstrings hmem
          · rintro ⟨⟩
            exact ⟨‹_›, ‹_›⟩
      | null | bool | number | object => exact ⟨nofun, nofun⟩

/-! ### The query -/

/-- The parameters of a callback that the flow waits for, and the authorization code they bring. -/
structure Expected (flow : Flow) (pairs : List (String × String)) (code : String) : Prop where
  unique : (pairs.map Prod.fst).Nodup
  state : ("state", flow.state) ∈ pairs
  noError : "error" ∉ pairs.map Prod.fst
  issuer : ∀ iss, ("iss", iss) ∈ pairs → iss = flow.issuer
  code : code ≠ "" ∧ ("code", code) ∈ pairs

theorem Auth.collectParams_spec {pairs : List (String × String)} {known params : Table String String}
    (h : Auth.collectParams pairs known = .ok params) :
    (pairs.map Prod.fst).Nodup ∧ (∀ key ∈ pairs.map Prod.fst, key ∉ known) ∧
      ∀ key value, params.lookup key = some value ↔ (key, value) ∈ pairs ∨ known.lookup key = some value := by
  induction pairs generalizing known with
  | nil =>
      cases h
      simp
  | cons pair pairs ih =>
      obtain ⟨name, text⟩ := pair
      rw [Auth.collectParams] at h
      split at h
      · cases h
      · rename_i hname
        obtain ⟨hnodup, hfresh, hlookup⟩ := ih h
        have hother : ∀ key ∈ pairs.map Prod.fst, key ≠ name ∧ key ∉ known := by
          intro key hkey
          have := hfresh key hkey
          rwa [AList.mem_insert, not_or] at this
        refine ⟨List.nodup_cons.mpr ⟨fun hin => (hother name hin).1 rfl, hnodup⟩, fun key hkey => ?_,
          fun key value => ?_⟩
        · rcases List.mem_cons.mp hkey with rfl | hkey
          · exact hname
          · exact (hother key hkey).2
        · rw [hlookup, AList.lookup_insert']
          have hnone : known.lookup name = none := AList.lookup_eq_none.mpr hname
          by_cases hkey : key = name
          · subst hkey
            simp only [if_pos, hnone, reduceCtorEq, or_false, List.mem_cons, Prod.mk.injEq, true_and,
              Option.some.injEq]
            rw [or_comm, eq_comm]
          · rw [if_neg hkey]
            simp only [List.mem_cons, Prod.mk.injEq, hkey, false_and, false_or]

theorem Auth.callbackCode_spec {lib : External} {path : String} {flow : Flow} {now : Instant} {code : String}
    (h : Auth.callbackCode lib path flow now = .ok code) :
    now < flow.expires ∧
      ∃ before query, Text.splitOnce path '?' = some (before, query) ∧
        Expected flow (lib.formUrlencoded query) code := by
  simp only [Auth.callbackCode, bind_eq_ok, reject_eq_ok, okOr_eq_ok, exists_const,
    Bool.or_eq_false_iff, decide_eq_false_iff_not, not_le, bne_eq_false_iff_eq, Option.isSome_eq_false_iff,
    Option.isNone_iff_eq_none] at h
  obtain ⟨⟨before, query⟩, hquery, params, hparams, ⟨hexpires, hstate⟩, herror, hissuer, hcode⟩ := h
  obtain ⟨hunique, -, hlookup⟩ := Auth.collectParams_spec hparams
  have hmem : ∀ key value, params.lookup key = some value ↔ (key, value) ∈ lib.formUrlencoded query := by
    intro key value
    simpa using hlookup key value
  obtain ⟨hcode, hne⟩ := Option.filter_eq_some_iff.mp hcode
  refine ⟨hexpires, before, query, hquery, hunique, (hmem _ _).mp hstate, ?_, fun iss hiss => ?_,
    by simpa using hne, (hmem _ _).mp hcode⟩
  · intro hin
    obtain ⟨⟨name, value⟩, hpair, rfl⟩ := List.mem_map.mp hin
    rw [(hmem _ _).mpr hpair] at herror
    cases herror
  · rw [(hmem _ _).mpr hiss] at hissuer
    simpa using hissuer

/-! ### The claims -/

/-- Claims good for a login at an instant, in seconds since the epoch. -/
structure Good (config : Oidc) (claims : Claims) (now : Int) : Prop where
  group : ∃ claim, claims.additional.lookup config.groupsClaim = some claim ∧ Carries config.requiredGroup claim
  party : ∀ party ∈ claims.authorizedParty, party = config.clientId
  issued : claims.issueTime ≤ now + 60
  notBefore : ∀ nbf ∈ claims.additional.lookup "nbf", ∃ seconds, nbf.asI64 = some seconds ∧ seconds ≤ now + 60
  expiry : now < claims.expiration

/-- The name a login is shown under: the preferred one, else the mail address, else the subject. -/
def Claims.shownName (claims : Claims) : String :=
  ((claims.preferredUsername.filter (· != "")).orElse fun _ => claims.email.filter (· != "")).getD claims.subject

theorem Auth.epochSeconds_eq_some {wall : ℚ} {now : Int} :
    Auth.epochSeconds wall = some now ↔ 0 ≤ wall ∧ ⌊wall⌋ = now := by
  unfold Auth.epochSeconds
  split
  · rename_i hwall
    simp [hwall]
  · rename_i hwall
    simp [not_lt.mp hwall]

theorem Auth.acceptTokens_spec {config : Oidc} {flow : Flow} {tokens : TokenResponse} {wall : ℚ} {login : Login}
    (h : Auth.acceptTokens config flow tokens wall = .ok login) :
    0 ≤ wall ∧ Good config tokens.claims ⌊wall⌋ ∧
      (login.lifetime : Int) = min 3600 (tokens.claims.expiration - ⌊wall⌋) ∧
      login.username = tokens.claims.shownName ∧
      ∀ provider ∈ login.providerLogout,
        flow.logoutEndpoint = some provider.endpoint ∧ provider.idToken = tokens.idToken := by
  simp only [Auth.acceptTokens, bind_eq_ok, reject_eq_ok, okOr_eq_ok, exists_const,
    Bool.or_eq_false_iff, decide_eq_false_iff_not, not_lt, Bool.not_eq_false', hasGroup_iff] at h
  obtain ⟨-, -, hgroup, now, hnow, ⟨hparty, hissued⟩, hnbf, hexpiry, h⟩ := h
  obtain ⟨hwall, rfl⟩ := epochSeconds_eq_some.mp hnow
  have hpositive : 0 < tokens.claims.expiration - ⌊wall⌋ := by
    have : (max 0 (min 3600 (tokens.claims.expiration - ⌊wall⌋))).toNat ≠ 0 := by simpa using hexpiry
    omega
  cases h
  refine ⟨hwall, ⟨hgroup, fun party hin => ?_, hissued, fun nbf hin => ?_, by omega⟩, ?_, rfl, ?_⟩
  · rw [Option.mem_def.mp hin] at hparty
    simpa using hparty
  · rw [Option.mem_def.mp hin, Option.any_some] at hnbf
    cases hseconds : nbf.asI64 with
    | none => simp [hseconds] at hnbf
    | some seconds => exact ⟨seconds, rfl, by simpa [hseconds] using hnbf⟩
  · simp only
    omega
  · intro provider hprovider
    obtain ⟨endpoint, hendpoint, rfl⟩ := Option.map_eq_some_iff.mp hprovider
    exact ⟨hendpoint, rfl⟩

/-- What a callback has passed when `finish_login` gives it a login. The code it exchanges is the one of its
query. -/
theorem Auth.finishLogin_spec {lib : External} {auth : Auth} {path : String} {flow : Flow}
    {answers : Answers} {login : Login} (h : auth.finishLogin lib path flow answers = .ok login) :
    answers.checked < flow.expires ∧ ∃ before query code tokens,
      Text.splitOnce path '?' = some (before, query) ∧ Expected flow (lib.formUrlencoded query) code ∧
        answers.exchange flow.client code flow.nonce flow.pkce = .ok tokens ∧
        Auth.acceptTokens auth.config flow tokens answers.wall = .ok login := by
  simp only [Auth.finishLogin, bind_eq_ok] at h
  obtain ⟨code, hcode, tokens, htokens, haccept⟩ := h
  obtain ⟨hexpires, before, query, hquery, hexpected⟩ := Auth.callbackCode_spec hcode
  exact ⟨hexpires, before, query, code, tokens, hquery, hexpected, htokens, haccept⟩

theorem Auth.finishLogin_lifetime {lib : External} {auth : Auth} {path : String} {flow : Flow}
    {answers : Answers} {login : Login} (h : auth.finishLogin lib path flow answers = .ok login) :
    1 ≤ login.lifetime ∧ login.lifetime ≤ 3600 := by
  obtain ⟨-, -, -, -, tokens, -, -, -, haccept⟩ := Auth.finishLogin_spec h
  obtain ⟨-, hgood, hlifetime, -⟩ := Auth.acceptTokens_spec haccept
  have := hgood.expiry
  omega

end SyslogDtlsAgent
