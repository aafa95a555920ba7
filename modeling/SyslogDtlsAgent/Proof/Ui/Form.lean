import SyslogDtlsAgent.Ui.Form
import SyslogDtlsAgent.Library.Words
import SyslogDtlsAgent.Proof.Config.Serde

/-!
# Settings through the form

What becomes of accepted settings that are shown in the form and read again, and for which of them that is
nothing at all. Numbers, addresses and choices are read as they were shown; texts come back as a line without
white space around it.
-/

namespace SyslogDtlsAgent

open Library

namespace Ui

/-! ### Texts -/

/-- A text as an input keeps it. -/
def line (s : String) : String := Control.text.sanitize s

/-- A text as it is read from its input. -/
def entered (s : String) : String := trim (line s)

/-- Without line breaks. -/
def IsLine (s : String) : Prop := '\n' ∉ s.toList ∧ '\r' ∉ s.toList

theorem line_eq_self_iff {s : String} : line s = s ↔ IsLine s := by
  have hiff : line s = s ↔ s.toList.filter (fun c => c != '\n' && c != '\r') = s.toList := by
    rw [line, Control.sanitize, ← String.toList_inj, String.toList_ofList]
  rw [hiff, List.filter_eq_self, IsLine]
  constructor
  · intro h
    exact ⟨fun hmem => absurd (h _ hmem) (by decide), fun hmem => absurd (h _ hmem) (by decide)⟩
  · rintro ⟨hn, hr⟩ c hc
    have hne : c ≠ '\n' ∧ c ≠ '\r' := ⟨fun h => hn (h ▸ hc), fun h => hr (h ▸ hc)⟩
    simp [hne.1, hne.2]

theorem toList_trim (s : String) : (trim s).toList = trimBy isBlank s.toList := String.toList_ofList

theorem isLine_line (s : String) : IsLine (line s) := by
  simp [IsLine, line, Control.sanitize]

theorem isLine_entered (s : String) : IsLine (entered s) := by
  have hsub : ∀ c ∈ (entered s).toList, c ∈ (line s).toList := by
    intro c hc
    rw [entered, toList_trim, trimBy, List.mem_reverse] at hc
    have hfront := (List.dropWhile_sublist isBlank).mem hc
    rw [List.mem_reverse] at hfront
    exact (List.dropWhile_sublist isBlank).mem hfront
  obtain ⟨hn, hr⟩ := isLine_line s
  exact ⟨fun h => hn (hsub _ h), fun h => hr (hsub _ h)⟩

/-- A text is read as it was shown if it is a line without white space at its ends, and only then. -/
theorem entered_eq_self_iff {s : String} : entered s = s ↔ IsLine s ∧ Trimmed isBlank s.toList := by
  have hline (h : IsLine s) : entered s = s ↔ Trimmed isBlank s.toList := by
    rw [entered, line_eq_self_iff.mpr h, ← trimBy_eq_self_iff, ← String.toList_inj, toList_trim]
  constructor
  · intro h
    have hs : IsLine s := h ▸ isLine_entered s
    exact ⟨hs, (hline hs).mp h⟩
  · rintro ⟨hs, htrimmed⟩
    exact (hline hs).mpr htrimmed

/-! ### Scopes -/

/-- The scopes as they are read. -/
def enteredScopes (scopes : List String) : List String := splitWords (entered (join scopes))

theorem splitWords_entered (scopes : List String) : splitWords (entered (join scopes)) = enteredScopes scopes := rfl

theorem splitWords_eq (s : String) : splitWords s = (wordsBy isBlank s.toList).map String.ofList := rfl

theorem enteredScopes_eq_self_iff {scopes : List String} :
    enteredScopes scopes = scopes ↔ ∀ scope ∈ scopes, IsWord isBlank scope.toList := by
  constructor
  · intro h scope hscope
    rw [← h, enteredScopes, splitWords_eq] at hscope
    obtain ⟨word, hword, rfl⟩ := List.mem_map.mp hscope
    rw [String.toList_ofList]
    exact isWord_of_mem_wordsBy hword
  · intro h
    have hwords : ∀ word ∈ scopes.map String.toList, IsWord isBlank word := by
      intro word hword
      obtain ⟨scope, hscope, rfl⟩ := List.mem_map.mp hword
      exact h scope hscope
    have htoList : (join scopes).toList = [' '].intercalate (scopes.map String.toList) := String.toList_ofList
    have hbreak : ∀ c, isBlank c = true → c ≠ ' ' → c ∉ (join scopes).toList := by
      intro c hblank hspace hc
      rw [htoList] at hc
      rcases mem_intercalate hc with hsep | ⟨word, hword, hmem⟩
      · exact hspace hsep
      · have hsolid := (hwords word hword).solid c hmem
        rw [hblank] at hsolid
        cases hsolid
    have hline : IsLine (join scopes) := ⟨hbreak '\n' rfl (by decide), hbreak '\r' rfl (by decide)⟩
    have hentered : entered (join scopes) = join scopes :=
      entered_eq_self_iff.mpr ⟨hline, htoList ▸ trimmed_intercalate ' ' hwords⟩
    rw [enteredScopes, hentered, splitWords_eq, htoList, wordsBy_intercalate rfl hwords, List.map_map]
    have hid : String.ofList ∘ String.toList = id := funext fun s => String.ofList_toList
    rw [hid, List.map_id]

/-! ### Numbers and addresses -/

theorem not_blank_of_visible {c : Char} (h : IsVisible c) : isBlank c = false := by
  obtain ⟨hlow, hhigh⟩ := h
  simp only [isBlank, Bool.or_eq_false_iff, Bool.and_eq_false_iff, beq_eq_false_iff_ne, decide_eq_false_iff_not]
  omega

/-- A visible text is read as it was shown. -/
theorem entered_visible {s : String} (h : ∀ c ∈ s.toList, IsVisible c) : entered s = s := by
  have hbreak : ∀ c : Char, c.toNat < 33 → c ∉ s.toList := fun c hc hmem => absurd (h c hmem).1 (by omega)
  have htrimmed : Trimmed isBlank s.toList := .of_solid fun c hc => not_blank_of_visible (h c hc)
  exact entered_eq_self_iff.mpr ⟨⟨hbreak '\n' (by decide), hbreak '\r' (by decide)⟩, htrimmed⟩

theorem visible_of_isDigit {c : Char} (h : c.isDigit = true) : IsVisible c := by
  rw [Char.isDigit_iff_toNat] at h
  exact ⟨le_trans (by decide) h.1, le_trans h.2 (by decide)⟩

theorem entered_display (ip : IpAddr) : entered ip.display = ip.display := entered_visible ip.display_visible

theorem display_ne_empty (ip : IpAddr) : ip.display ≠ "" := by
  intro h
  have hread := parseIpAddr_display ip
  rw [h] at hread
  have hnone : parseIpAddr "" = none := by decide
  rw [hnone] at hread
  cases hread

theorem isDigit_of_mem_toString {n : Nat} : ∀ c ∈ (toString n).toList, c.isDigit = true := by
  intro c hc
  rw [toList_toString] at hc
  exact Nat.isDigit_of_mem_toDigits (by decide) (by decide) hc

theorem toString_ne_empty (n : Nat) : toString n ≠ "" := by
  intro h
  have hnil : Nat.toDigits 10 n = [] := by
    rw [← toList_toString, h]
    rfl
  exact Nat.toDigits_ne_nil hnil

theorem trim_toString (n : Nat) : trim (toString n) = toString n := by
  rw [← String.toList_inj, toList_trim, trimBy_eq_self_iff]
  exact .of_solid fun c hc => not_blank_of_visible (visible_of_isDigit (isDigit_of_mem_toString c hc))

theorem number_toString {n : Nat} (h : n < 2 ^ 53) : number (toString n) = some n := by
  have hvalue : Nat.ofDigitChars 10 (toString n).toList 0 = n := by
    rw [toList_toString, Nat.ofDigitChars_ten_toDigits]
  simp only [number, trim_toString, hvalue]
  rw [if_pos ⟨List.all_eq_true.mpr isDigit_of_mem_toString, h⟩]

/-! ### The page -/

theorem value_set_of_ne {page : Page} {id other value : String} (h : other ≠ id) :
    (page.set id value).value other = page.value other := Function.update_of_ne h _ _

theorem value_set (page : Page) (id value : String) :
    (page.set id value).value id = (control id).sanitize value := Function.update_self _ _ _

/-- The loop over a table sets each input once. -/
theorem value_foldl {table : List (String × (Config → String))} (hnodup : (table.map Prod.fst).Nodup) (c : Config)
    (page : Page) (id : String) :
    (∀ get, (id, get) ∈ table →
        (table.foldl (fun page (id, get) => page.set id (get c)) page).value id = (control id).sanitize (get c)) ∧
      (id ∉ table.map Prod.fst →
        (table.foldl (fun page (id, get) => page.set id (get c)) page).value id = page.value id) := by
  induction table generalizing page with
  | nil => exact ⟨fun get h => absurd h List.not_mem_nil, fun _ => rfl⟩
  | cons entry table ih =>
      obtain ⟨hentry, htable⟩ := List.nodup_cons.mp hnodup
      obtain ⟨hset, hkept⟩ := ih htable (page.set entry.1 (entry.2 c))
      constructor
      · intro get h
        rcases List.mem_cons.mp h with rfl | h
        · exact (hkept hentry).trans (value_set page id (get c))
        · exact hset get h
      · intro h
        obtain ⟨hne, hrest⟩ := not_or.mp (mt List.mem_cons.mpr h)
        exact (hkept hrest).trans (value_set_of_ne hne)

theorem fields_nodup : (fields.map Prod.fst).Nodup := by decide

theorem fields_control :
    fields.map (fun e => control e.1) =
      [.select ["false", "true"], .text, .text, .text, .text, .text, .text, .text, .text, .number, .text, .number,
        .number, .text, .number, .text, .text, .text, .text, .number, .number, .number, .number, .number, .number,
        .number, .number] := by
  decide

/-- What an input holds once the page is populated. -/
theorem populate_value {id : String} {get : Config → String} (h : (id, get) ∈ fields) (c : Config) (page : Page) :
    (populate c page).value id = (control id).sanitize (get c) := by
  have hmem : id ∈ fields.map Prod.fst := List.mem_map_of_mem h
  have hmode : "source-mode" ∉ fields.map Prod.fst := by decide
  have hne : id ≠ "source-mode" := fun heq => hmode (heq ▸ hmem)
  exact (value_set_of_ne hne).trans ((value_foldl fields_nodup c page id).1 get h)

theorem populate_mode (c : Config) (page : Page) :
    modeOf ((populate c page).value "source-mode") = some c.sourceAccess.mode := by
  have hvalue : (populate c page).value "source-mode" =
      (control "source-mode").sanitize (modeName c.sourceAccess.mode) := by
    simp only [populate, value_set]
  rw [hvalue]
  cases c.sourceAccess.mode with
  | any => decide
  | allowlist => decide

theorem populate_allowedIps (c : Config) (page : Page) :
    (populate c page).allowedIps.mapM parseIpAddr = some c.sourceAccess.allowedIps := by
  show (c.sourceAccess.allowedIps.map IpAddr.display).mapM parseIpAddr = _
  induction c.sourceAccess.allowedIps with
  | nil => rfl
  | cons ip ips ih =>
      rw [List.map_cons, List.mapM_cons, parseIpAddr_display, ih]
      rfl

/-- What a number input is set to is kept. -/
theorem sanitize_number (n : Nat) : Control.number.sanitize (toString n) = toString n :=
  if_pos ⟨toString_ne_empty n, List.all_eq_true.mpr isDigit_of_mem_toString⟩

theorem sanitize_text (s : String) : Control.text.sanitize s = line s := rfl

theorem trim_line (s : String) : trim (line s) = entered s := rfl

theorem trim_enabled (enabled : Bool) :
    (trim ((Control.select ["false", "true"]).sanitize (toString enabled)) == "true") = enabled := by
  cases enabled <;> decide

/-- An address is not blank, so its default is not taken. -/
theorem orElse_display (ip : IpAddr) (b : String) : orElse (entered ip.display) b = ip.display := by
  rw [entered_display]
  exact if_neg (display_ne_empty ip)

/-- No name and a blank one are shown, and read, alike. -/
theorem entered_name (name : Option String) :
    (if entered (name.getD "") = "" then none else some (entered (name.getD ""))) =
      (name.map entered).filter (· ≠ "") := by
  cases name with
  | none => decide
  | some name =>
      rw [Option.getD_some, Option.map_some, Option.filter_some]
      by_cases hempty : entered name = ""
      · simp [hempty]
      · simp [hempty]

theorem orElse_entered_iff {s : String} : orElse (entered s) "groups" = s ↔ entered s = s ∧ s ≠ "" := by
  unfold orElse
  by_cases hempty : entered s = ""
  · rw [if_pos hempty]
    constructor
    · intro h
      have hgroups : entered "groups" = "groups" := by decide
      rw [← h, hgroups] at hempty
      exact absurd hempty (by decide)
    · rintro ⟨hs, hne⟩
      exact absurd (hs.symm.trans hempty) hne
  · rw [if_neg hempty]
    constructor
    · intro h
      exact ⟨h, h ▸ hempty⟩
    · exact fun h => h.1

theorem entered_name_iff {name : Option String} :
    (name.map entered).filter (· ≠ "") = name ↔ ∀ s ∈ name, entered s = s ∧ s ≠ "" := by
  cases name with
  | none => simp
  | some s =>
      rw [Option.map_some, Option.filter_some]
      by_cases hempty : entered s = ""
      · simp only [hempty, ne_eq, not_true_eq_false, decide_false, Bool.false_eq_true, if_false, reduceCtorEq,
          Option.mem_some_iff, forall_eq', false_iff, not_and, not_not]
        exact fun hs => hs.symm
      · simp only [hempty, ne_eq, not_false_eq_true, decide_true, if_true, Option.some.injEq, Option.mem_some_iff,
          forall_eq', iff_self_and]
        exact fun hs => hs ▸ hempty

theorem number_filter {n max : Nat} (hmax : n ≤ max) (hsmall : n < 2 ^ 53) :
    (number (toString n)).filter (· ≤ max) = some n := by
  rw [number_toString hsmall]
  simp [hmax]

end Ui

open Ui

/-! ### Settings -/

/-- The OIDC settings as the form gives them back. -/
def Oidc.asEntered (oidc : Oidc) : Oidc :=
  { oidc with
    discoveryUri := entered oidc.discoveryUri
    clientId := entered oidc.clientId
    clientSecret := line oidc.clientSecret
    publicUrl := entered oidc.publicUrl
    groupsClaim := orElse (entered oidc.groupsClaim) "groups"
    requiredGroup := entered oidc.requiredGroup
    scopes := enteredScopes oidc.scopes }

def Remote.asEntered (remote : Remote) : Remote :=
  { remote with
    host := entered remote.host
    expectedServerName := (remote.expectedServerName.map entered).filter (· ≠ "") }

def Config.asEntered (config : Config) : Config :=
  { config with
    http := { config.http with oidc := config.http.oidc.asEntered }
    remote := config.remote.asEntered
    identity := ⟨entered config.identity.certificateChain, entered config.identity.privateKey⟩
    trust := ⟨entered config.trust.caBundle⟩ }

variable {lib : External} {config : Config}

theorem read_populate (h : config.SettingsValid lib) (hports : config.PortsFit) (page : Page) :
    Ui.read (populate config page) = some config.asEntered := by
  have hvalues : ∀ e ∈ fields, (populate config page).value e.1 = (control e.1).sanitize (e.2 config) :=
    fun e he => populate_value he config page
  have hcontrols := fields_control
  simp only [fields, List.map_cons, List.map_nil, List.cons.injEq] at hcontrols
  simp only [fields, List.forall_mem_cons, hcontrols, sanitize_number] at hvalues
  have num {n most : Nat} (hn : n ≤ most) (width : Nat) (hwidth : most ≤ width) (hsmall : most < 2 ^ 53) :
      (number (toString n)).filter (· ≤ width) = some n :=
    number_filter (hn.trans hwidth) (by omega)
  have hoidc : readOidc (populate config page) = some config.http.oidc.asEntered := by
    have hplain := Oidc.tryFrom_plain config.http.oidc.asEntered
    simp only [Oidc.asEntered] at hplain ⊢
    simp only [readOidc, Page.text, hvalues, sanitize_text, trim_line, trim_enabled, splitWords_entered, hplain]
    rfl
  have hhttp : readHttp (populate config page) = some { config.http with oidc := config.http.oidc.asEntered } := by
    have hport := num hports.http Width.u16 (Nat.le_refl _) (by decide)
    simp only [readHttp, Page.text, Page.num, hvalues, sanitize_text, trim_line, orElse_display, parseIpAddr_display,
      trim_toString, toString_ne_empty, if_false, hport, hoidc]
    rfl
  have haccess : readSourceAccess (populate config page) = some config.sourceAccess := by
    simp only [readSourceAccess, populate_mode, populate_allowedIps]
    rfl
  have hlistener : readListener (populate config page) = some config.listener := by
    have hport := num hports.listener Width.u16 (Nat.le_refl _) (by decide)
    have hbytes := num h.maxMessageBytes.2 Width.u64 (by decide) (by decide)
    simp only [readListener, Page.text, Page.num, hvalues, sanitize_text, trim_line, entered_display,
      parseIpAddr_display, hport, hbytes]
    rfl
  have hremote : readRemote (populate config page) = some config.remote.asEntered := by
    have hport := num hports.remote Width.u16 (Nat.le_refl _) (by decide)
    simp only [readRemote, Page.text, Page.num, hvalues, sanitize_text, trim_line, hport, entered_name]
    rfl
  have hqueue : readQueue (populate config page) = some config.queue := by
    have hmessages := num h.maxMessages.2 Width.u64 (by decide) (by decide)
    have hbytes := num h.maxBytes.2 Width.u64 (by decide) (by decide)
    simp only [readQueue, Page.num, hvalues, hmessages, hbytes]
    rfl
  have hdtls : readDtls (populate config page) = some config.dtls := by
    have hdatagram := num h.datagramBytes.2 Width.u32 (by decide) (by decide)
    have hrate := num h.messagesPerSecond.2 Width.u32 (by decide) (by decide)
    have hdrain := num h.shutdownDrain Width.u64 (by decide) (by decide)
    have hhandshake := num h.handshakeTimeout.2 Width.u64 (by decide) (by decide)
    have hinitial := num h.retryInitial.2 Width.u64 (by decide) (by decide)
    have hmax := num h.retryMax.2 Width.u64 (by decide) (by decide)
    simp only [readDtls, Page.num, hvalues, hdatagram, hrate, hdrain, hhandshake, hinitial, hmax]
    rfl
  simp only [Ui.read, hhttp, haccess, hlistener, hremote, hqueue, hdtls, Page.text, hvalues, sanitize_text, trim_line,
    ← h.schemaVersion]
  rfl

/-- The texts that are trimmed when they are read. -/
def Oidc.formTexts (oidc : Oidc) : List String :=
  [oidc.discoveryUri, oidc.clientId, oidc.publicUrl, oidc.groupsClaim, oidc.requiredGroup]

def Remote.formTexts (remote : Remote) : List String := remote.host :: remote.expectedServerName.toList

def Config.formTexts (config : Config) : List String :=
  config.http.oidc.formTexts ++ config.remote.formTexts ++
    [config.identity.certificateChain, config.identity.privateKey, config.trust.caBundle]

/-- Settings that the form can show without loss. -/
structure Config.FormStable (config : Config) : Prop where
  texts : ∀ s ∈ config.formTexts, IsLine s ∧ Trimmed isBlank s.toList
  /-- White space around the secret is kept. -/
  secret : IsLine config.http.oidc.clientSecret
  groupsClaim : config.http.oidc.groupsClaim ≠ ""
  serverName : config.remote.expectedServerName ≠ some ""
  scopes : ∀ scope ∈ config.http.oidc.scopes, IsWord isBlank scope.toList

theorem Oidc.asEntered_eq_self_iff {oidc : Oidc} :
    oidc.asEntered = oidc ↔
      (∀ s ∈ oidc.formTexts, entered s = s) ∧ IsLine oidc.clientSecret ∧ oidc.groupsClaim ≠ "" ∧
        ∀ scope ∈ oidc.scopes, IsWord isBlank scope.toList := by
  obtain ⟨enabled, discoveryUri, clientId, clientSecret, publicUrl, groupsClaim, requiredGroup, scopes⟩ := oidc
  simp only [Oidc.asEntered, Oidc.mk.injEq, Oidc.formTexts, true_and, line_eq_self_iff, orElse_entered_iff,
    enteredScopes_eq_self_iff, List.forall_mem_cons]
  constructor
  · rintro ⟨hdiscovery, hclient, hsecret, hpublic, ⟨hgroups, hne⟩, hrequired, hscopes⟩
    exact ⟨⟨hdiscovery, hclient, hpublic, hgroups, hrequired, by simp⟩, hsecret, hne, hscopes⟩
  · rintro ⟨⟨hdiscovery, hclient, hpublic, hgroups, hrequired, -⟩, hsecret, hne, hscopes⟩
    exact ⟨hdiscovery, hclient, hsecret, hpublic, ⟨hgroups, hne⟩, hrequired, hscopes⟩

theorem Remote.asEntered_eq_self_iff {remote : Remote} :
    remote.asEntered = remote ↔
      (∀ s ∈ remote.formTexts, entered s = s) ∧ remote.expectedServerName ≠ some "" := by
  obtain ⟨host, port, name⟩ := remote
  simp only [Remote.asEntered, Remote.mk.injEq, Remote.formTexts, true_and, entered_name_iff, List.forall_mem_cons,
    Option.mem_toList]
  constructor
  · rintro ⟨hhost, hname⟩
    exact ⟨⟨hhost, fun s hs => (hname s hs).1⟩, fun hempty => (hname "" hempty).2 rfl⟩
  · rintro ⟨⟨hhost, hname⟩, hne⟩
    exact ⟨hhost, fun s hs => ⟨hname s hs, fun hempty => hne (hempty ▸ hs)⟩⟩

theorem Config.asEntered_eq_self_iff : config.asEntered = config ↔ config.FormStable := by
  have hsections : config.asEntered = config ↔
      config.http.oidc.asEntered = config.http.oidc ∧ config.remote.asEntered = config.remote ∧
        ∀ s ∈ [config.identity.certificateChain, config.identity.privateKey, config.trust.caBundle],
          entered s = s := by
    obtain ⟨version, listener, ⟨oidc, address, port⟩, remote, ⟨chain, key⟩, ⟨bundle⟩, access, queue, dtls⟩ := config
    simp [Config.asEntered, and_assoc]
  have htexts : (∀ s ∈ config.formTexts, IsLine s ∧ Trimmed isBlank s.toList) ↔
      ((∀ s ∈ config.http.oidc.formTexts, entered s = s) ∧ ∀ s ∈ config.remote.formTexts, entered s = s) ∧
        ∀ s ∈ [config.identity.certificateChain, config.identity.privateKey, config.trust.caBundle],
          entered s = s := by
    simp only [← entered_eq_self_iff, Config.formTexts, List.forall_mem_append]
  rw [hsections, Oidc.asEntered_eq_self_iff, Remote.asEntered_eq_self_iff]
  constructor
  · rintro ⟨⟨hoidc, hsecret, hgroups, hscopes⟩, ⟨hremote, hname⟩, hpaths⟩
    exact ⟨htexts.mpr ⟨⟨hoidc, hremote⟩, hpaths⟩, hsecret, hgroups, hname, hscopes⟩
  · intro h
    obtain ⟨⟨hoidc, hremote⟩, hpaths⟩ := htexts.mp h.texts
    exact ⟨⟨hoidc, h.secret, h.groupsClaim, h.scopes⟩, ⟨hremote, h.serverName⟩, hpaths⟩

/-- Accepted settings shown in the form and read again come back with their texts trimmed and nothing else
changed, whatever the form held before. They come back as they were exactly if the form can show them. -/
theorem form_keeps_settings_iff (hvalid : config.validate lib = .ok ()) (hports : config.PortsFit) (page : Page) :
    Ui.read (populate config page) = some config.asEntered ∧
      (Ui.read (populate config page) = some config ↔ config.FormStable) := by
  have hread := read_populate (Config.validate_eq_ok.mp hvalid).1 hports page
  refine ⟨hread, ?_⟩
  rw [hread, Option.some_inj]
  exact Config.asEntered_eq_self_iff

/-- Settings with logins, two scopes and an allowlist with addresses of both kinds can be shown, in whatever the
form held before. -/
theorem form_keeps_settings_iff_with_logins :
    let lib : External :=
      ⟨fun _ => false, some,
        fun url =>
          if url = "https://id.example/.well-known/openid-configuration" then
            some ⟨"https", "", none, some "id.example", "/.well-known/openid-configuration", none, none,
              "https://id.example"⟩
          else if url = "https://agent.example" then
            some ⟨"https", "", none, some "agent.example", "/", none, none, "https://agent.example"⟩
          else none,
        fun _ => []⟩
    let oidc : Oidc :=
      ⟨true, "https://id.example/.well-known/openid-configuration", "agent", " a secret ", "https://agent.example",
        "groups", "night operators", ["profile", "email"]⟩
    let config : Config :=
      { Config.default with
        http := { Http.default with oidc }
        sourceAccess := ⟨.allowlist, [.v4 0x0a000001#32, .v6 0x20010db8000000000000000000000001#128]⟩ }
    let page : Page := ⟨fun _ => "left over", ["10.0.0.9"]⟩
    config.validate lib = .ok () ∧ Ui.read (populate config page) = some config := by
  intro lib oidc config page
  have hdiscovery : httpUrl lib oidc.discoveryUri =
      .ok ⟨"https", "", none, some "id.example", "/.well-known/openid-configuration", none, none,
        "https://id.example"⟩ := rfl
  have horigin : httpUrl lib oidc.publicUrl =
      .ok ⟨"https", "", none, some "agent.example", "/", none, none, "https://agent.example"⟩ := rfl
  have hoidc : oidc.validate lib = .ok () := by
    simp only [Oidc.validate, hdiscovery, horigin]
    decide +kernel
  have hdefault := Config.validate_eq_ok.mp (Config.default_valid lib rfl)
  have hvalid : config.validate lib = .ok () :=
    Config.validate_eq_ok.mpr ⟨{ hdefault.1 with oidc := hoidc, allowedIps := by decide }, hdefault.2⟩
  have hports : config.PortsFit := ⟨by decide, by decide, by decide⟩
  have hentered : ∀ s ∈ config.formTexts, entered s = s := by decide +kernel
  have hstable : config.FormStable := by
    refine ⟨fun s hs => entered_eq_self_iff.mp (hentered s hs), ?_, by decide, by decide, ?_⟩
    · exact line_eq_self_iff.mp (by decide)
    · exact enteredScopes_eq_self_iff.mp (by decide +kernel)
  exact ⟨hvalid, (form_keeps_settings_iff hvalid hports page).2.mpr hstable⟩

/-- A required group with a space before it passes validation and loses the space in the form. -/
theorem form_renames_a_required_group :
    let lib : External :=
      ⟨fun _ => false, some,
        fun url =>
          if url = "https://id.example/.well-known/openid-configuration" then
            some ⟨"https", "", none, some "id.example", "/.well-known/openid-configuration", none, none,
              "https://id.example"⟩
          else if url = "https://agent.example" then
            some ⟨"https", "", none, some "agent.example", "/", none, none, "https://agent.example"⟩
          else none,
        fun _ => []⟩
    let oidc : Oidc :=
      ⟨true, "https://id.example/.well-known/openid-configuration", "agent", "", "https://agent.example", "groups",
        " operators", []⟩
    let config : Config := { Config.default with http := { Http.default with oidc } }
    config.validate lib = .ok () ∧ config.PortsFit ∧
      ∀ page, (Ui.read (populate config page)).map (·.http.oidc.requiredGroup) = some "operators" ∧
        Ui.read (populate config page) ≠ some config := by
  intro lib oidc config
  have hdiscovery : httpUrl lib oidc.discoveryUri =
      .ok ⟨"https", "", none, some "id.example", "/.well-known/openid-configuration", none, none,
        "https://id.example"⟩ := rfl
  have horigin : httpUrl lib oidc.publicUrl =
      .ok ⟨"https", "", none, some "agent.example", "/", none, none, "https://agent.example"⟩ := rfl
  have hoidc : oidc.validate lib = .ok () := by
    simp only [Oidc.validate, hdiscovery, horigin]
    decide +kernel
  have hdefault := (Config.validate_eq_ok.mp (Config.default_valid lib rfl))
  have hvalid : config.validate lib = .ok () :=
    Config.validate_eq_ok.mpr ⟨{ hdefault.1 with oidc := hoidc }, hdefault.2⟩
  have hports : config.PortsFit := ⟨by decide, by decide, by decide⟩
  refine ⟨hvalid, hports, fun page => ?_⟩
  have hread := read_populate (Config.validate_eq_ok.mp hvalid).1 hports page
  have hgroup : config.asEntered.http.oidc.requiredGroup = "operators" := by decide
  rw [hread]
  refine ⟨congrArg some hgroup, fun hsame => ?_⟩
  rw [Option.some.inj hsame] at hgroup
  exact absurd hgroup (by decide)

end SyslogDtlsAgent
