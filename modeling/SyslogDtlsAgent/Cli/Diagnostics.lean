import SyslogDtlsAgent.Cli.Json
import SyslogDtlsAgent.Core.Text

/-!
# Claims in the debug log

`diagnostic_claims` of `auth.rs`: the claims of an ID token as they are logged, with the values of
sensitive members replaced.
-/

namespace SyslogDtlsAgent

/-- The member names whose values do not reach the log, whatever the case of their ASCII letters. -/
def sensitive (name : String) : Bool :=
  let name := Text.toAsciiLowercase name
  ["nonce", "sid", "jti", "state", "at_hash", "c_hash", "s_hash", "code", "authorization", "cookie",
      "set-cookie", "session_id"].contains name ||
    Text.contains name "token" || Text.contains name "secret" || Text.contains name "password" ||
    Text.contains name "private_key" || Text.startsWith name "code_"

def redacted : Json := .string "[REDACTED]"

mutual

def redact : Json → Json
  | .object fields => .object (redactFields fields)
  | .array values => .array (redactValues values)
  | value => value

/-- The loop over the members of an object. -/
def redactFields : List (String × Json) → List (String × Json)
  | [] => []
  | (name, value) :: rest => (name, if sensitive name then redacted else redact value) :: redactFields rest

/-- `values.iter_mut().for_each(redact)`. -/
def redactValues : List Json → List Json
  | [] => []
  | value :: rest => redact value :: redactValues rest

end

/-- `diagnostic_claims`, given what serializing the claims yields. -/
def diagnosticClaims (claims : Option Json) : Json :=
  redact (claims.getD (.string "[claims serialization failed]"))

end SyslogDtlsAgent
