import Mathlib

/-!
# Addresses

`std::net` as the agent uses it: IP addresses with their order and classification, socket addresses,
and the textual parser behind `str::parse::<IpAddr>` and `str::parse::<SocketAddr>`. An address is
its bits in network order, so the IPv4-mapped IPv6 addresses are those whose upper 96 bits are
`::ffff`.
-/

namespace SyslogDtlsAgent

inductive IpAddr where
  | v4 (bits : BitVec 32)
  | v6 (bits : BitVec 128)
  deriving DecidableEq

/-- An address with a port. The flow label and the scope id that an IPv6 address can have are left out: the
parser reads a scope id and drops it. -/
structure SocketAddr where
  ip : IpAddr
  port : Nat
  deriving DecidableEq

namespace IpAddr

/-- The order of `Ord for IpAddr`: every IPv4 address before every IPv6 address. -/
def le : IpAddr → IpAddr → Bool
  | v4 a, v4 b => decide (a ≤ b)
  | v4 _, v6 _ => true
  | v6 _, v4 _ => false
  | v6 a, v6 b => decide (a ≤ b)

def isV4 : IpAddr → Bool
  | v4 _ => true
  | v6 _ => false

def isLoopback : IpAddr → Bool
  | v4 bits => bits.extractLsb' 24 8 == 127#8
  | v6 bits => bits == 1#128

def isUnspecified : IpAddr → Bool
  | v4 bits => bits == 0#32
  | v6 bits => bits == 0#128

/-- `Ipv4Addr::to_ipv6_mapped`. -/
def toIpv6Mapped (bits : BitVec 32) : IpAddr := v6 (0xffff#96 ++ bits)

/-- `Ipv6Addr::to_ipv4_mapped`. -/
def toIpv4Mapped (bits : BitVec 128) : Option (BitVec 32) :=
  if bits.extractLsb' 32 96 = 0xffff#96 then some (bits.extractLsb' 0 32) else none

theorem toIpv4Mapped_mapped (bits : BitVec 32) :
    toIpv4Mapped (0xffff#96 ++ bits) = some bits := by
  have hhigh : (0xffff#96 ++ bits).extractLsb' 32 96 = 0xffff#96 :=
    BitVec.extractLsb'_append_eq_left
  have hlow : (0xffff#96 ++ bits).extractLsb' 0 32 = bits := BitVec.extractLsb'_append_eq_right
  rw [toIpv4Mapped, if_pos hhigh, hlow]

end IpAddr

/-- Treat IPv4 and its mapped IPv6 representation as the same source. -/
def canonicalIp (ip : IpAddr) : IpAddr :=
  match ip with
  | .v6 bits => ((IpAddr.toIpv4Mapped bits).map .v4).getD ip
  | .v4 _ => ip

@[simp] theorem canonicalIp_v4 (bits : BitVec 32) : canonicalIp (.v4 bits) = .v4 bits := rfl

@[simp] theorem canonicalIp_mapped (bits : BitVec 32) :
    canonicalIp (IpAddr.toIpv6Mapped bits) = .v4 bits := by
  simp only [IpAddr.toIpv6Mapped, canonicalIp, IpAddr.toIpv4Mapped_mapped, Option.map_some,
    Option.getD_some]

theorem canonicalIp_idem (ip : IpAddr) : canonicalIp (canonicalIp ip) = canonicalIp ip := by
  cases ip with
  | v4 bits => rfl
  | v6 bits =>
      cases hmapped : IpAddr.toIpv4Mapped bits with
      | none => simp only [canonicalIp, hmapped, Option.map_none, Option.getD_none]
      | some low => simp only [canonicalIp, hmapped, Option.map_some, Option.getD_some]

/-! ### The address parser

`core::net::parser`, over characters. Every reader returns what it read and the input left. -/

namespace AddrParser

abbrev Reader (α : Type) := List Char → Option (α × List Char)

/-- `char::to_digit`. -/
def toDigit (radix : Nat) (c : Char) : Option Nat :=
  let value :=
    if '0' ≤ c ∧ c ≤ '9' then c.toNat - '0'.toNat
    else if 'a' ≤ c ∧ c ≤ 'f' then c.toNat - 'a'.toNat + 10
    else if 'A' ≤ c ∧ c ≤ 'F' then c.toNat - 'A'.toNat + 10
    else radix
  if value < radix then some value else none

/-- The leading digits and what follows them. -/
def takeDigits (radix : Nat) : List Char → List Nat × List Char
  | [] => ([], [])
  | c :: rest =>
      match toDigit radix c with
      | none => ([], c :: rest)
      | some d => ((d :: (takeDigits radix rest).1), (takeDigits radix rest).2)

def readGivenChar (c : Char) : Reader Unit
  | [] => none
  | d :: rest => if d = c then some ((), rest) else none

/-- `max` is the largest value of the target type; both overflow checks of the source reject
exactly the numbers above it. -/
def readNumber (radix : Nat) (maxDigits : Option Nat) (allowZeroPrefix : Bool) (max : Nat) :
    Reader Nat := fun s =>
  let (digits, rest) := takeDigits radix s
  let value := digits.foldl (fun acc d => acc * radix + d) 0
  if maxDigits.any (· < digits.length) then none
  else if digits = [] then none
  else if !allowZeroPrefix && s.head? == some '0' && decide (1 < digits.length) then none
  else if max < value then none
  else some (value, rest)

def readSeparator {α : Type} (sep : Char) (index : Nat) (inner : Reader α) : Reader α := fun s =>
  if index = 0 then inner s else do
    let ((), rest) ← readGivenChar sep s
    inner rest

def readIpv4Addr : Reader (BitVec 32) := fun s => do
  let octet (index : Nat) := readSeparator '.' index (readNumber 10 (some 3) false 255)
  let (a, s) ← octet 0 s
  let (b, s) ← octet 1 s
  let (c, s) ← octet 2 s
  let (d, s) ← octet 3 s
  return (BitVec.ofNat 8 a ++ BitVec.ofNat 8 b ++ BitVec.ofNat 8 c ++ BitVec.ofNat 8 d, s)

/-- The groups read from position `limit - left` on, and whether they end in an embedded IPv4
address. -/
def readGroups (limit : Nat) : Nat → List Char → List (BitVec 16) × Bool × List Char
  | 0, s => ([], false, s)
  | left + 1, s =>
      let index := limit - (left + 1)
      let embedded := if index + 1 < limit then readSeparator ':' index readIpv4Addr s else none
      match embedded with
      | some (bits, rest) => ([bits.extractLsb' 16 16, bits.extractLsb' 0 16], true, rest)
      | none =>
          match readSeparator ':' index (readNumber 16 (some 4) true 0xffff) s with
          | some (group, rest) =>
              let (groups, isV4, rest) := readGroups limit left rest
              (BitVec.ofNat 16 group :: groups, isV4, rest)
          | none => ([], false, s)

/-- The address whose groups are given, most significant first. -/
def ofGroups (groups : List (BitVec 16)) : BitVec 128 :=
  BitVec.ofNat 128 (groups.foldl (fun acc g => acc * 2 ^ 16 + g.toNat) 0)

def readIpv6Addr : Reader (BitVec 128) := fun s => do
  let (head, headIpv4, s) := readGroups 8 8 s
  if head.length = 8 then
    return (ofGroups head, s)
  else if headIpv4 then
    none
  else
    let ((), s) ← readGivenChar ':' s
    let ((), s) ← readGivenChar ':' s
    let limit := 8 - (head.length + 1)
    let (tail, _, s) := readGroups limit limit s
    return (ofGroups (head ++ List.replicate (8 - head.length - tail.length) 0 ++ tail), s)

def readPort : Reader Nat := fun s => do
  let ((), s) ← readGivenChar ':' s
  readNumber 10 none true 65535 s

def readScopeId : Reader Nat := fun s => do
  let ((), s) ← readGivenChar '%' s
  readNumber 10 none true 4294967295 s

def readSocketAddrV4 : Reader SocketAddr := fun s => do
  let (ip, s) ← readIpv4Addr s
  let (port, s) ← readPort s
  return (⟨.v4 ip, port⟩, s)

def readSocketAddrV6 : Reader SocketAddr := fun s => do
  let ((), s) ← readGivenChar '[' s
  let (ip, s) ← readIpv6Addr s
  let s := ((readScopeId s).map Prod.snd).getD s
  let ((), s) ← readGivenChar ']' s
  let (port, s) ← readPort s
  return (⟨.v6 ip, port⟩, s)

/-- A text parses when a reader consumes all of it. -/
def parseWith {α : Type} (inner : Reader α) (text : String) : Option α :=
  match inner text.toList with
  | some (value, []) => some value
  | _ => none

end AddrParser

open AddrParser in
/-- `str::parse::<IpAddr>`. -/
def parseIpAddr (text : String) : Option IpAddr :=
  parseWith (fun s =>
    ((readIpv4Addr s).map fun (ip, rest) => (IpAddr.v4 ip, rest)).orElse fun _ =>
      (readIpv6Addr s).map fun (ip, rest) => (IpAddr.v6 ip, rest)) text

open AddrParser in
/-- `str::parse::<SocketAddr>`. -/
def parseSocketAddr (text : String) : Option SocketAddr :=
  parseWith (fun s => (readSocketAddrV4 s).orElse fun _ => readSocketAddrV6 s) text

example : parseSocketAddr "[::ffff:1.2.3.4%7]:080" = some ⟨.v6 0xffff01020304#128, 80⟩ := by decide

/-! ### Display -/

/-- The longest run of zero groups, the first of them when several are longest, as its start and
length. -/
def zeroSpan (groups : List (BitVec 16)) : Nat × Nat :=
  let scan := groups.zipIdx.foldl
    (fun (acc : (Nat × Nat) × (Nat × Nat)) (group, i) =>
      let (longest, current) := acc
      if group = 0#16 then
        let current := (if current.2 = 0 then i else current.1, current.2 + 1)
        (if longest.2 < current.2 then current else longest, current)
      else (longest, (0, 0)))
    ((0, 0), (0, 0))
  scan.1

def displayV4 (bits : BitVec 32) : String :=
  ".".intercalate ([24, 16, 8, 0].map fun shift => toString (bits.extractLsb' shift 8).toNat)

def displayGroups (groups : List (BitVec 16)) : String :=
  ":".intercalate (groups.map fun group => String.ofList (Nat.toDigits 16 group.toNat))

/-- `IpAddr::to_string`. -/
def IpAddr.display : IpAddr → String
  | .v4 bits => displayV4 bits
  | .v6 bits =>
      match IpAddr.toIpv4Mapped bits with
      | some low => "::ffff:" ++ displayV4 low
      | none =>
          let groups := (List.range 8).map fun i => bits.extractLsb' (16 * (7 - i)) 16
          let (start, length) := zeroSpan groups
          if 1 < length then
            displayGroups (groups.take start) ++ "::" ++ displayGroups (groups.drop (start + length))
          else displayGroups groups

/-- `SocketAddr::to_string`. -/
def SocketAddr.display (address : SocketAddr) : String :=
  match address.ip with
  | .v4 _ => address.ip.display ++ ":" ++ toString address.port
  | .v6 _ => "[" ++ address.ip.display ++ "]:" ++ toString address.port

end SyslogDtlsAgent
