import Mathlib

/-!
# JSON values

`serde_json::Value` with the accessors the agent uses. An object is its members in the order of the
map, which holds no name twice.
-/

namespace SyslogDtlsAgent

/-- `serde_json::Number`. -/
inductive Number where
  | posInt (n : UInt64)
  /-- Always negative. -/
  | negInt (n : Int64)
  /-- The bits of a finite `f64`. -/
  | float (bits : UInt64)
  deriving DecidableEq

inductive Json where
  | null
  | bool (b : Bool)
  | number (n : Number)
  | string (s : String)
  | array (values : List Json)
  | object (members : List (String × Json))

namespace Json

/-- `Value::get` with a name. -/
def get (value : Json) (name : String) : Option Json :=
  match value with
  | .object members => members.lookup name
  | _ => none

/-- `value[name]`. -/
def index (value : Json) (name : String) : Json := (value.get name).getD .null

def asStr : Json → Option String
  | .string s => some s
  | _ => none

def isString (value : Json) : Bool := value.asStr.isSome

/-- `Value::as_i64`: an integer that fits. -/
def asI64 : Json → Option Int
  | .number (.posInt n) => if n.toNat ≤ 9223372036854775807 then some n.toNat else none
  | .number (.negInt n) => some n.toInt
  | _ => none

end Json

end SyslogDtlsAgent
