import SyslogDtlsAgent.Core.External
import SyslogDtlsAgent.Library.Scan

/-!
# RFC 5424 input validation and octet-count framing

`framing.rs`. The validator slices its input at computed offsets and runs three nested loops, so it
is a scanner of `Library.Scan`: a `return false` of the source is `reject`, a slice that would panic
is `panic`, and every loop carries fuel. `validMessage` is what the relay branches on.
-/

namespace SyslogDtlsAgent

open Library Scan

/-! ### The bytes the grammar names -/

namespace Byte

abbrev space : UInt8 := 0x20
abbrev quote : UInt8 := 0x22
abbrev plus : UInt8 := 0x2b
abbrev dash : UInt8 := 0x2d
abbrev dot : UInt8 := 0x2e
abbrev zero : UInt8 := 0x30
abbrev colon : UInt8 := 0x3a
abbrev less : UInt8 := 0x3c
abbrev equals : UInt8 := 0x3d
abbrev greater : UInt8 := 0x3e
abbrev upperT : UInt8 := 0x54
abbrev upperZ : UInt8 := 0x5a
abbrev open_ : UInt8 := 0x5b
abbrev backslash : UInt8 := 0x5c
abbrev close : UInt8 := 0x5d

/-- `u8::is_ascii_digit`. -/
def isDigit (b : UInt8) : Bool := 0x30 ≤ b && b ≤ 0x39

/-- `(33..=126).contains(b)`. -/
def isPrintable (b : UInt8) : Bool := 33 ≤ b && b ≤ 126

/-- The bytes a backslash escapes inside a parameter value. -/
def isEscapable (b : UInt8) : Bool := b == quote || b == backslash || b == close

end Byte

open Byte

/-- `usize::to_string().into_bytes()`. -/
def decimal (n : Nat) : Bytes := asBytes (toString n)

def frame (message : Bytes) : Bytes := decimal message.length ++ space :: message

/-! ### Header -/

/-- The number a byte string of decimal digits denotes. -/
def digitsValue (digits : Bytes) : Nat := digits.foldl (fun acc b => acc * 10 + (b.toNat - 48)) 0

/-- `str::parse::<u16>`. -/
def parseU16 (text : Bytes) : Option Nat :=
  let digits := if text.head? = some plus then text.drop 1 else text
  if digits = [] ∨ !digits.all isDigit ∨ 65535 < digitsValue digits then none
  else some (digitsValue digits)

/-- The priority in front of the header fields; the result starts after its `>`. -/
def priority (m : Bytes) : Scan Bytes := do
  require (m.head? == some less)
  let end_ ← orReject (position (· == greater) m)
  let pri ← slice m 1 end_
  require (pri != [])
  require (decide (pri.length ≤ 3))
  require (pri.all isDigit)
  if 1 < pri.length then
    let first ← get pri 0
    require (first != zero)
  require (isUtf8 pri)
  let p ← orReject (parseU16 pri)
  require (decide (p ≤ 191))
  dropTo m (end_ + 1)

/-- Header fields, each ended by a space; the result starts after the last space. -/
def headerFields : Nat → Bytes → Scan (List Bytes × Bytes)
  | 0, rest => return ([], rest)
  | count + 1, rest => do
      let n ← orReject (position (· == space) rest)
      let field ← takeTo rest n
      let rest ← dropTo rest (n + 1)
      let (fields, rest) ← headerFields count rest
      return (field :: fields, rest)

/-- `str::is_char_boundary`. -/
def isCharBoundary (text : Bytes) (i : Nat) : Bool :=
  i == 0 || i == text.length || (text[i]?).any fun b => b < 0x80 || 0xc0 ≤ b

/-- `str::get(lo..)`. -/
def strGetFrom (text : Bytes) (lo : Nat) : Option Bytes :=
  if lo ≤ text.length ∧ isCharBoundary text lo then some (text.drop lo) else none

/-- `str::get(lo..hi)`. -/
def strGet (text : Bytes) (lo hi : Nat) : Option Bytes :=
  if lo ≤ hi ∧ hi ≤ text.length ∧ isCharBoundary text lo ∧ isCharBoundary text hi then
    some ((text.take hi).drop lo)
  else none

section

variable (lib : External)

/-- A timestamp other than `-`: what the RFC 3339 parser accepts, less what RFC 5424 excludes. -/
def timestamp (ts : Bytes) : Scan Unit := do
  require (isUtf8 ts)
  require (ts.contains upperT)
  require (ts.getLast? == some upperZ ||
    (strGetFrom ts 19).any fun s => s.contains plus || s.contains dash)
  require (lib.rfc3339 ts)
  if dot ∈ ts then
    let frac := (ts.dropWhile (· != dot)).drop 1
    require (decide ((frac.takeWhile isDigit).length ≤ 6))
  require (strGet ts 17 19 != some [0x36, 0x30])

/-! ### Structured data -/

def sdName (s : Bytes) : Bool :=
  s != [] && decide (s.length ≤ 32) &&
    s.all fun b => isPrintable b && !(b == equals || b == close || b == quote)

/-- The position of the quote that ends a parameter value, searched from `i` on. -/
def valueEnd (rest : Bytes) : Nat → Nat → Scan Nat
  | 0, _ => .error .diverge
  | fuel + 1, i =>
      match rest[i]? with
      | none => .error .reject
      | some b =>
          if b = quote then return i
          else if b = close then .error .reject
          else if b = backslash ∧ (rest[i + 1]?).any isEscapable then valueEnd rest fuel (i + 1 + 1)
          else valueEnd rest fuel (i + 1)

/-- The parameters of one element. -/
def sdParams : Nat → Bytes → Scan Bytes
  | 0, _ => .error .diverge
  | fuel + 1, rest =>
      if rest.head? = some space then do
        let rest ← dropTo rest 1
        let n ← orReject (position (· == equals) rest)
        let name ← takeTo rest n
        require (sdName name)
        require (rest[n + 1]? == some quote)
        let rest ← dropTo rest (n + 2)
        let i ← valueEnd rest (rest.length + 1) 0
        let value ← takeTo rest i
        require (isUtf8 value)
        let rest ← dropTo rest (i + 1)
        sdParams fuel rest
      else return rest

/-- The elements, with the ids read so far. -/
def sdElements : Nat → List Bytes → Bytes → Scan (List Bytes × Bytes)
  | 0, _, _ => .error .diverge
  | fuel + 1, ids, rest =>
      if rest.head? = some open_ then do
        let rest ← dropTo rest 1
        let n := (position (fun b => b == space || b == close) rest).getD rest.length
        let id ← takeTo rest n
        require (sdName id)
        require (!ids.contains id)
        let rest ← dropTo rest n
        let rest ← sdParams (rest.length + 1) rest
        require (rest.head? == some close)
        let rest ← dropTo rest 1
        sdElements fuel (ids ++ [id]) rest
      else return (ids, rest)

def validTail (s : Bytes) : Scan Bool := do
  if s = [] then return true
  let first ← get s 0
  if first ≠ space then return false
  let msg ← dropTo s 1
  return !([0xef, 0xbb, 0xbf] : Bytes).isPrefixOf msg || isUtf8 msg

/-! ### The validator -/

/-- `valid_message`, with `return false` as `reject`. -/
def scanMessage (m : Bytes) : Scan Bool := do
  let rest ← priority m
  let (fields, rest) ← headerFields 6 rest
  let version ← get fields 0
  require (version == [0x31])
  let ts ← get fields 1
  if ts ≠ [dash] then timestamp lib ts
  let names ← dropTo fields 2
  require ((names.zip [255, 48, 128, 32]).all fun (field, max) =>
    field != [] && decide (field.length ≤ max) && field.all isPrintable)
  if rest.head? = some dash then
    let tail ← dropTo rest 1
    validTail tail
  else
    let (ids, rest) ← sdElements (rest.length + 1) [] rest
    if ids = [] then return false
    validTail rest

/-- Validate the RFC 5424 header and structured data, preserving arbitrary MSG bytes. -/
def validMessage (m : Bytes) : Bool :=
  match scanMessage lib m with
  | .ok accepted => accepted
  | .error _ => false

end

end SyslogDtlsAgent
