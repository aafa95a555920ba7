import SyslogDtlsAgent.Cli.Json
import SyslogDtlsAgent.Core.Text

/-!
# Group claims

Some providers encode a group list as a comma-separated string instead of an array. Array members
remain literal group names; only the scalar string uses this convention.
-/

namespace SyslogDtlsAgent

open Json

def stringHasGroup (groups required : String) : Bool :=
  if required == "" then false
  else if Text.containsChar groups ',' then
    ((Text.split groups ',').map Text.trim).any fun group => group != "" && group == required
  else groups == required

def hasGroup (value : Option Json) (required : String) : Bool :=
  match value with
  | some (.string group) => stringHasGroup group required
  | some (.array groups) => groups.all isString && groups.any fun g => g.asStr == some required
  | _ => false

/-- What the log says about a group claim. -/
def groupCheck (value : Option Json) (required : String) : String :=
  match value with
  | none => "configured claim absent from ID token"
  | some (.string group) =>
      if Text.containsChar group ',' && stringHasGroup group required then "matched comma-separated group"
      else if group == required then "matched string"
      else if Text.containsChar group ',' then
        if ((Text.split group ',').map Text.trim).any fun g => g != "" && Text.eqIgnoreAsciiCase g required
        then "comma-separated group differs in letter case (matching is case-sensitive)"
        else "required group not found in comma-separated string"
      else if Text.eqIgnoreAsciiCase group required then
        "string differs in letter case (matching is case-sensitive)"
      else "string does not equal required group"
  | some (.array groups) =>
      if !groups.all isString then "claim array contains non-string values"
      else if groups.isEmpty then "claim array is empty"
      else if groups.any fun g => g.asStr == some required then "matched string-array member"
      else if groups.any fun g => g.asStr.any fun g => Text.eqIgnoreAsciiCase g required then
        "array member differs in letter case (matching is case-sensitive)"
      else "required group not found in string array"
  | some _ => "claim has unsupported type (expected string or string array)"

end SyslogDtlsAgent
