import SyslogDtlsAgent.Cli.Json
import SyslogDtlsAgent.Core.Text

/-!
# Requests and responses

What the handlers of `web.rs` and `auth.rs` read of a `tiny_http` request and what they answer. A body
is kept in the form it has before it is written out, so that a statement can say what a response
shows.
-/

namespace SyslogDtlsAgent

inductive Method where
  | get
  | post
  | other (name : String)
  deriving DecidableEq

structure Request where
  method : Method
  url : String
  headers : List (String × String)
  /-- `body_length`: the length the request declares. -/
  bodyLength : Option Nat
  /-- What reading the body as text gives, unless that fails. -/
  body : Option String

namespace Request

/-- `url().split('?').next().unwrap_or("")`. -/
def path (request : Request) : String := (Text.split request.url '?').head?.getD ""

def header (request : Request) (name : String) : Option String :=
  (request.headers.find? fun h => Text.eqIgnoreAsciiCase h.1 name).map Prod.snd

/-- The values of all cookies of one name. -/
def cookies (request : Request) (name : String) : List String :=
  let headers := request.headers.filter fun h => Text.eqIgnoreAsciiCase h.1 "cookie"
  let parts := headers.flatMap fun h => Text.split h.2 ';'
  let pairs := parts.filterMap fun part => Text.splitOnce (Text.trim part) '='
  (pairs.filter fun pair => pair.1 == name).map Prod.snd

def cookieValue (request : Request) (name : String) : Option String :=
  match request.cookies name with
  | [] => none
  | value :: others => if others ≠ [] ∨ 128 < Text.len value then none else some value

theorem cookieValue_eq_some {request : Request} {name value : String} :
    request.cookieValue name = some value ↔ request.cookies name = [value] ∧ Text.len value ≤ 128 := by
  unfold cookieValue
  split
  · rename_i h
    simp [h]
  · rename_i first others h
    simp only [h, List.cons.injEq]
    split
    · rename_i hbad
      simp only [reduceCtorEq, false_iff, not_and, not_le]
      rintro ⟨rfl, hnil⟩
      exact hbad.resolve_left fun hne => hne hnil
    · rename_i hgood
      push Not at hgood
      simp only [Option.some.injEq]
      constructor
      · rintro rfl
        exact ⟨⟨rfl, hgood.1⟩, hgood.2⟩
      · rintro ⟨⟨rfl, -⟩, -⟩
        rfl

end Request

/-- The files of the browser interface; the last one says whether logins are on. -/
inductive Asset where
  | indexHtml
  | appJs
  | styleCss
  | iconSvg
  | agentMode (oidc : Bool)
  deriving DecidableEq

inductive Body where
  | text (text : String)
  | json (value : Json)
  | asset (asset : Asset)
  /-- The page that posts a logout to the provider. -/
  | logoutForm (endpoint idToken clientId redirectUri : String)

structure Response where
  code : Nat
  headers : List (String × String)
  body : Body

def respondWith (code : Nat) (mime : String) (body : Body) (headers : List (String × String)) :
    Response where
  code := code
  headers :=
    [("Referrer-Policy", "no-referrer"), ("Content-Type", mime), ("Cache-Control", "no-store"),
      ("X-Content-Type-Options", "nosniff"),
      ("Content-Security-Policy", "default-src 'self'; script-src 'self'; style-src 'self'; " ++
        "img-src 'self' data:; connect-src 'self'; frame-ancestors 'none'; object-src 'none'; " ++
        "base-uri 'none'")] ++ headers
  body := body

def respond (code : Nat) (mime : String) (body : Body) : Response := respondWith code mime body []

def loginError (code : Nat) (message : String) : Response :=
  respond code "text/html; charset=utf-8" (.text
    ("<!doctype html><html lang=\"en\"><meta charset=\"utf-8\"><title>Syslog DTLS Agent — Login</title>" ++
      "<h1>Syslog DTLS Agent</h1><p>" ++ message ++ "</p><a href=\"/auth/login\">Sign in</a></html>"))

/-- What handling a request comes to: it is passed on, answered, or an `unwrap` fails. -/
inductive Outcome where
  | forward
  | reply (response : Response)
  | panic

end SyslogDtlsAgent
