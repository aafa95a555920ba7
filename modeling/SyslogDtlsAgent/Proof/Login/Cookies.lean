import SyslogDtlsAgent.Cli.Auth
import SyslogDtlsAgent.Library.Trim

/-!
# Cookies

What a browser sends and what the agent makes of it. A `Cookie` header is a list of parts with semicolons
between them; the parser is shown to invert that rendering for any list of headers, so a cookie is read
exactly when it is the only one of its name.
-/

namespace SyslogDtlsAgent

open Library

/-- A text is split at a character that its front does not have. -/
theorem splitOnce_of_front {sep : Char} {front : String} (h : sep ∉ front.toList) (back : String) :
    Text.splitOnce (String.ofList (front.toList ++ sep :: back.toList)) sep = some (front, back) := by
  have hfront : ∀ c ∈ front.toList, (c != sep) = true := by
    intro c hc
    rw [bne_iff_ne]
    rintro rfl
    exact h hc
  rw [Text.splitOnce, String.toList_ofList, if_pos (by simp), List.takeWhile_append_of_pos hfront,
    List.takeWhile_cons_of_neg (by simp), List.dropWhile_append_of_pos hfront,
    List.dropWhile_cons_of_neg (by simp), List.append_nil, List.drop_one, List.tail_cons, String.ofList_toList,
    String.ofList_toList]

/-- A cookie in a header: a name, an equals sign and a value, with spaces around them. -/
structure Part where
  before : List Char
  name : String
  value : String
  after : List Char
  blankBefore : ∀ c ∈ before, c = ' '
  blankAfter : ∀ c ∈ after, c = ' '
  plainName : ∀ c ∈ name.toList, c ≠ '=' ∧ c ≠ ';' ∧ Text.isWhitespace c = false
  plainValue : ';' ∉ value.toList
  trimmedValue : Trimmed Text.isWhitespace value.toList

namespace Part

def pair (part : Part) : String × String := (part.name, part.value)

def text (part : Part) : List Char :=
  part.before ++ (part.name.toList ++ '=' :: part.value.toList) ++ part.after

/-- The value of a `Cookie` header. -/
def render (parts : List Part) : String := String.ofList ([';'].intercalate (parts.map text))

theorem no_semicolon (part : Part) : ';' ∉ part.text := by
  intro hin
  simp only [text, List.mem_append, List.mem_cons] at hin
  rcases hin with (hin | hin | hin | hin) | hin
  · exact absurd (part.blankBefore _ hin) (by decide)
  · exact (part.plainName _ hin).2.1 rfl
  · exact absurd hin (by decide)
  · exact part.plainValue hin
  · exact absurd (part.blankAfter _ hin) (by decide)

theorem trimmed (part : Part) :
    Trimmed Text.isWhitespace (part.name.toList ++ '=' :: part.value.toList) where
  front c hc := by
    cases hname : part.name.toList with
    | nil =>
        rw [hname] at hc
        cases hc
        decide
    | cons d name =>
        rw [hname] at hc
        have hd : d ∈ part.name.toList := by
          rw [hname]
          exact List.mem_cons_self
        obtain rfl : d = c := Option.some.inj hc
        exact (part.plainName d hd).2.2
  back c hc := by
    rw [List.getLast?_append_of_ne_nil _ (List.cons_ne_nil _ _)] at hc
    cases hvalue : part.value.toList with
    | nil =>
        rw [hvalue] at hc
        cases hc
        decide
    | cons d value =>
        rw [hvalue, List.getLast?_cons_cons] at hc
        apply part.trimmedValue.back
        rw [hvalue]
        exact hc

/-- A part is read as its pair. -/
theorem read (part : Part) : Text.splitOnce (Text.trim (String.ofList part.text)) '=' = some part.pair := by
  have hblank : ∀ c : Char, c = ' ' → Text.isWhitespace c = true := by
    rintro c rfl
    decide
  have htrim : Text.trim (String.ofList part.text) =
      String.ofList (part.name.toList ++ '=' :: part.value.toList) := by
    have hpad := trimBy_pad (fun c hc => hblank c (part.blankBefore c hc)) part.trimmed
      (fun c hc => hblank c (part.blankAfter c hc))
    rw [Text.trim, String.toList_ofList]
    exact congrArg String.ofList hpad
  have hname : '=' ∉ part.name.toList := fun hc => (part.plainName _ hc).1 rfl
  rw [htrim]
  exact splitOnce_of_front hname part.value

theorem read_texts (parts : List Part) :
    ((parts.map text).map String.ofList).filterMap (fun part => Text.splitOnce (Text.trim part) '=') =
      parts.map pair := by
  induction parts with
  | nil => rfl
  | cons part parts ih =>
      simp only [List.map_cons, List.filterMap_cons, part.read, ih]

/-- A header is read as the pairs it was made of. -/
theorem read_render (parts : List Part) :
    (Text.split (render parts) ';').filterMap (fun part => Text.splitOnce (Text.trim part) '=') =
      parts.map pair := by
  by_cases hnil : parts = []
  · subst hnil
    rfl
  · have hparts : ([';'].intercalate (parts.map text)).splitOn ';' = parts.map text := by
      apply List.splitOn_intercalate
      · intro t ht
        obtain ⟨part, -, rfl⟩ := List.mem_map.mp ht
        exact part.no_semicolon
      · simpa using hnil
    rw [Text.split, render, String.toList_ofList, hparts]
    exact read_texts parts

/-- The text of a name and a value, as a check that evaluates. -/
def wellFormed (name value : String) : Bool :=
  name.toList.all (fun c => c != '=' && c != ';' && !Text.isWhitespace c) && !value.toList.contains ';' &&
    value.toList.head?.all (!Text.isWhitespace ·) && value.toList.getLast?.all (!Text.isWhitespace ·)

/-- The part of a name and a value, with some spaces in front of it. -/
def make (spaces : Nat) (name value : String) (h : wellFormed name value = true) : Part where
  before := List.replicate spaces ' '
  name := name
  value := value
  after := []
  blankBefore _ hc := List.eq_of_mem_replicate hc
  blankAfter _ hc := absurd hc List.not_mem_nil
  plainName c hc := by
    simp only [wellFormed, Bool.and_eq_true] at h
    simpa [and_assoc] using List.all_eq_true.mp h.1.1.1 c hc
  plainValue := by
    simp only [wellFormed, Bool.and_eq_true] at h
    simpa using h.1.1.2
  trimmedValue := by
    simp only [wellFormed, Bool.and_eq_true, Option.all_eq_true, Bool.not_eq_true'] at h
    exact ⟨h.1.2, h.2⟩

end Part

/-- The cookies one header of a request carries. -/
inductive Carried : String × String → List (String × String) → Prop where
  | cookie {field : String} (hfield : Text.eqIgnoreAsciiCase field "cookie" = true) (parts : List Part) :
      Carried (field, Part.render parts) (parts.map Part.pair)
  | other {field value : String} (hfield : Text.eqIgnoreAsciiCase field "cookie" = false) :
      Carried (field, value) []

theorem cookies_of_carried {request : Request} {groups : List (List (String × String))}
    (h : List.Forall₂ Carried request.headers groups) (name : String) :
    request.cookies name = (groups.flatten.filter (·.1 == name)).map Prod.snd := by
  have hpairs : (((request.headers.filter fun h => Text.eqIgnoreAsciiCase h.1 "cookie").flatMap fun h =>
      Text.split h.2 ';').filterMap fun part => Text.splitOnce (Text.trim part) '=') = groups.flatten := by
    generalize request.headers = headers at h
    induction h with
    | nil => rfl
    | cons hheader hrest ih =>
        cases hheader with
        | cookie hfield parts =>
            simp only [List.filter_cons, hfield, if_true, List.flatMap_cons, List.filterMap_append,
              Part.read_render, ih, List.flatten_cons]
        | other hfield =>
            simp only [List.filter_cons, hfield, Bool.false_eq_true, if_false, ih, List.flatten_cons,
              List.nil_append]
  rw [Request.cookies, hpairs]

/-- What `CsrfToken::new_random` draws: base64url text, much shorter than the limit on a value. -/
structure RandomKey (key : String) : Prop where
  chars : ∀ c ∈ key.toList, Text.isAsciiAlphanumeric c = true ∨ c = '-' ∨ c = '_'
  length : Text.len key ≤ 128

/-- The cookies the agent issues. -/
def cookieKinds : List String := ["flow", "session", "logout"]

theorem plain_of_key {c : Char} (h : Text.isAsciiAlphanumeric c = true ∨ c = '-' ∨ c = '_') :
    c ≠ ';' ∧ Text.isWhitespace c = false := by
  rcases h with h | rfl | rfl
  · have hbounds : 48 ≤ c.toNat ∧ c.toNat ≤ 57 ∨ 65 ≤ c.toNat ∧ c.toNat ≤ 122 := by
      simp only [Text.isAsciiAlphanumeric, Bool.or_eq_true, Bool.and_eq_true, decide_eq_true_eq, Char.le_def,
        UInt32.le_iff_toNat_le] at h
      rcases h with (⟨hlow, hhigh⟩ | ⟨hlow, hhigh⟩) | ⟨hlow, hhigh⟩
      · exact .inl ⟨hlow, hhigh⟩
      · exact .inr ⟨Nat.le_trans (by decide) hlow, hhigh⟩
      · exact .inr ⟨hlow, Nat.le_trans hhigh (by decide)⟩
    constructor
    · rintro rfl
      exact absurd hbounds (by decide)
    · simp only [Text.isWhitespace, Bool.or_eq_false_iff, Bool.and_eq_false_iff, decide_eq_false_iff_not,
        beq_eq_false_iff_ne]
      omega
  · decide
  · decide

theorem plain_cookieName (auth : Auth) {kind : String} (hkind : kind ∈ cookieKinds) :
    ∀ c ∈ (auth.cookieName kind).toList, c ≠ '=' ∧ c ≠ ';' ∧ Text.isWhitespace c = false := by
  have hall : ∀ kind ∈ cookieKinds, ∀ secure : Bool,
      ((if secure then "__Host-" else "") ++ "syslog_" ++ kind).toList.all
        (fun c => c != '=' && c != ';' && !Text.isWhitespace c) = true := by
    decide +kernel
  intro c hc
  have hplain := List.all_eq_true.mp (hall kind hkind auth.secure) c hc
  simpa [and_assoc] using hplain

/-- What a browser keeps of the header that sets a cookie: the text in front of the first semicolon. -/
def stored (header : String) : Option (String × String) :=
  Text.splitOnce ((Text.split header ';').headD "") '='

theorem stored_cookie (auth : Auth) {kind key : String} (hkind : kind ∈ cookieKinds) (hkey : RandomKey key)
    (age : Nat) : stored (auth.cookie kind key age) = some (auth.cookieName kind, key) := by
  have hname := plain_cookieName auth hkind
  have hequals : '=' ∉ (auth.cookieName kind).toList := fun hc => (hname _ hc).1 rfl
  have hplain : ';' ∉ (auth.cookieName kind).toList ++ '=' :: key.toList := by
    intro hin
    rcases List.mem_append.mp hin with hin | hin
    · exact (hname _ hin).2.1 rfl
    rcases List.mem_cons.mp hin with hin | hin
    · exact absurd hin (by decide)
    · exact (plain_of_key (hkey.chars _ hin)).1 rfl
  obtain ⟨attributes, hcookie⟩ : ∃ attributes, (auth.cookie kind key age).toList =
      ((auth.cookieName kind).toList ++ '=' :: key.toList) ++ ';' :: attributes := by
    refine ⟨(" Path=/; HttpOnly; SameSite=Lax; Max-Age=" ++ toString age ++
      if auth.secure then "; Secure" else "").toList, ?_⟩
    simp [Auth.cookie]
  rw [stored, Text.split, hcookie, List.splitOn_append_cons_self_of_not_mem hplain, List.map_cons,
    List.headD_cons]
  exact splitOnce_of_front hequals key

/-- One cookie of a name, as a list of values and as a list of pairs. -/
theorem filter_eq_singleton_iff {pairs : List (String × String)} {name value : String} :
    (pairs.filter (·.1 == name)).map Prod.snd = [value] ↔ pairs.filter (·.1 == name) = [(name, value)] := by
  constructor
  · intro h
    obtain ⟨pair, hpair, hvalue⟩ := List.map_eq_singleton_iff.mp h
    have hmem : pair ∈ pairs.filter (·.1 == name) := by
      rw [hpair]
      exact List.mem_singleton_self pair
    have hname : pair.1 = name := eq_of_beq (List.mem_filter.mp hmem).2
    rw [hpair, ← hname, ← hvalue]
  · intro h
    rw [h]
    rfl

theorem presented_iff (auth : Auth) {request : Request} {groups : List (List (String × String))}
    (h : List.Forall₂ Carried request.headers groups) (kind value : String) :
    auth.presented kind request = some value ↔
      groups.flatten.filter (·.1 == auth.cookieName kind) = [(auth.cookieName kind, value)] ∧
        Text.len value ≤ 128 := by
  rw [Auth.presented, Request.cookieValue_eq_some, cookies_of_carried h]
  apply and_congr_left
  intro _
  exact filter_eq_singleton_iff

/-- The part in which an issued cookie comes back. -/
def Part.issued (auth : Auth) {kind key : String} (hkind : kind ∈ cookieKinds) (hkey : RandomKey key) : Part where
  before := []
  name := auth.cookieName kind
  value := key
  after := []
  blankBefore _ hc := absurd hc List.not_mem_nil
  blankAfter _ hc := absurd hc List.not_mem_nil
  plainName := plain_cookieName auth hkind
  plainValue hin := (plain_of_key (hkey.chars _ hin)).1 rfl
  trimmedValue := .of_solid fun c hc => (plain_of_key (hkey.chars c hc)).2

/-- A visit that brings back nothing but an issued cookie. -/
theorem presented_issued (auth : Auth) {kind key : String} (hkind : kind ∈ cookieKinds) (hkey : RandomKey key)
    (path : String) : auth.presented kind
      ⟨.get, path, [("Cookie", Part.render [Part.issued auth hkind hkey])], none, none⟩ = some key := by
  have hcarried : List.Forall₂ Carried [("Cookie", Part.render [Part.issued auth hkind hkey])]
      [[(auth.cookieName kind, key)]] :=
    .cons (.cookie (by decide) [Part.issued auth hkind hkey]) .nil
  rw [presented_iff auth hcarried]
  exact ⟨by simp, hkey.length⟩

theorem cookies_read_back_exactly (auth : Auth) (request : Request) (groups : List (List (String × String)))
    (h : List.Forall₂ Carried request.headers groups) (kind : String) :
    (∀ value, auth.presented kind request = some value ↔
        groups.flatten.filter (·.1 == auth.cookieName kind) = [(auth.cookieName kind, value)] ∧
          Text.len value ≤ 128) ∧
      (kind ∈ cookieKinds → ∀ key age, RandomKey key →
        stored (auth.cookie kind key age) = some (auth.cookieName kind, key) ∧
          ∀ before after, groups.flatten = before ++ (auth.cookieName kind, key) :: after →
            (∀ pair ∈ before ++ after, pair.1 ≠ auth.cookieName kind) → auth.presented kind request = some key) ∧
      ∀ before between after value other, groups.flatten =
        before ++ (auth.cookieName kind, value) :: between ++ (auth.cookieName kind, other) :: after →
          auth.presented kind request = none := by
  have hread := presented_iff auth h kind
  refine ⟨hread, fun hkind key age hkey => ⟨stored_cookie auth hkind hkey age, ?_⟩, ?_⟩
  · intro before after hsplit hothers
    rw [hread]
    refine ⟨?_, hkey.length⟩
    have hnone (pairs : List (String × String)) (hpairs : ∀ pair ∈ pairs, pair ∈ before ++ after) :
        pairs.filter (·.1 == auth.cookieName kind) = [] := by
      rw [List.filter_eq_nil_iff]
      intro pair hpair
      simpa using hothers pair (hpairs pair hpair)
    rw [hsplit, List.filter_append, hnone before fun pair => List.mem_append_left after, List.nil_append,
      List.filter_cons_of_pos (by simp), hnone after fun pair => List.mem_append_right before]
  · intro before between after value other hsplit
    cases hpresented : auth.presented kind request with
    | none => rfl
    | some chosen =>
        obtain ⟨hone, -⟩ := (hread chosen).mp hpresented
        have hlength := congrArg List.length hone
        simp only [hsplit, List.filter_append, List.filter_cons, BEq.rfl, if_true, List.length_append,
          List.length_cons, List.length_nil] at hlength
        omega

/-- A session cookie between two others, in a header with capitals and in front of another header. -/
theorem cookies_read_back_exactly_between_others :
    let url : Url := ⟨"https", "", none, some "agent.example", "/", none, none, "https://agent.example"⟩
    let auth := Auth.start Oidc.default url "agent.example"
    let headers := [("COOKIE", "theme=a=b;  __Host-syslog_session=Zm9v;syslog_session=other"),
      ("Host", "agent.example")]
    auth.presented "session" ⟨.get, "/", headers, none, none⟩ = some "Zm9v" := by
  intro url auth headers
  let theme := Part.make 0 "theme" "a=b" (by decide +kernel)
  let session := Part.make 2 "__Host-syslog_session" "Zm9v" (by decide +kernel)
  let other := Part.make 0 "syslog_session" "other" (by decide +kernel)
  have hrender : "theme=a=b;  __Host-syslog_session=Zm9v;syslog_session=other" =
      Part.render [theme, session, other] := by
    decide +kernel
  have hcarried : List.Forall₂ Carried headers
      [[("theme", "a=b"), ("__Host-syslog_session", "Zm9v"), ("syslog_session", "other")], []] := by
    refine .cons ?_ (.cons (.other (by decide +kernel)) .nil)
    rw [hrender]
    exact .cookie (by decide +kernel) [theme, session, other]
  have hread := (cookies_read_back_exactly auth ⟨.get, "/", headers, none, none⟩ _ hcarried "session").1 "Zm9v"
  exact hread.mpr (by decide +kernel)

end SyslogDtlsAgent
