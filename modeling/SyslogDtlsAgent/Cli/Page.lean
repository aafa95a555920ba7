import SyslogDtlsAgent.Core.Text

/-!
# The page of a logout

The page that `end_session` writes: a form that posts to the provider, with text from outside in the attributes.
-/

namespace SyslogDtlsAgent

def htmlAttribute (value : String) : String :=
  let value := Text.replaceChar value '&' "&amp;"
  let value := Text.replaceChar value '<' "&lt;"
  let value := Text.replaceChar value '>' "&gt;"
  let value := Text.replaceChar value '"' "&quot;"
  Text.replaceChar value '\'' "&#39;"

/-- The rendering of `Body.logoutForm`. -/
def logoutPage (endpoint idToken clientId redirectUri : String) : String :=
  "<!doctype html><html lang=\"en\"><meta charset=\"utf-8\"><meta name=\"viewport\"" ++
    " content=\"width=device-width,initial-scale=1\"" ++
    "><title>Signing out — Syslog DTLS Agent</title><h1>Signing out</h1><form id=\"provider-logout\"" ++
    " method=\"post\" action=\"" ++ htmlAttribute endpoint ++
    "\"><input type=\"hidden\" name=\"id_token_hint\" value=\"" ++ htmlAttribute idToken ++
    "\"><input type=\"hidden\" name=\"client_id\" value=\"" ++ htmlAttribute clientId ++
    "\"><input type=\"hidden\" name=\"post_logout_redirect_uri\" value=\"" ++ htmlAttribute redirectUri ++
    "\"><button type=\"submit\"" ++
    ">Continue signing out at your identity provider</button></form><script src=" ++
    "\"/auth/logout.js\"></script></html>"

end SyslogDtlsAgent
