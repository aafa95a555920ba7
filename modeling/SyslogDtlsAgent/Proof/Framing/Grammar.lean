import SyslogDtlsAgent.Core.Framing

/-!
# The grammar of a message

RFC 5424 version 1 with the receiver rules of the agent, as the shape of a byte string. Nothing here
looks at positions or at the scanner. The third-party parser of timestamps enters through
`Rfc3339Parser`, which says what it accepts at least and at most.
-/

namespace SyslogDtlsAgent

open Library Byte

/-! ### Timestamps -/

/-- The ASCII digit of a number below ten. -/
def digit (n : Nat) : UInt8 := UInt8.ofNat (48 + n)

def twoDigits (n : Nat) : Bytes := [digit (n / 10), digit (n % 10)]

def fourDigits (n : Nat) : Bytes := twoDigits (n / 100) ++ twoDigits (n % 100)

def isLeapYear (year : Nat) : Bool := year % 4 == 0 && (year % 100 != 0 || year % 400 == 0)

/-- The length of a month of the Gregorian calendar. -/
def daysInMonth (year month : Nat) : Nat :=
  if month = 2 then if isLeapYear year then 29 else 28
  else if month = 4 ∨ month = 6 ∨ month = 9 ∨ month = 11 then 30
  else 31

inductive Zone where
  /-- The letter that stands for UTC. -/
  | utc (letter : UInt8)
  | offset (sign : UInt8) (hour minute : Nat)

def Zone.render : Zone → Bytes
  | .utc letter => [letter]
  | .offset sign hour minute => sign :: twoDigits hour ++ colon :: twoDigits minute

def Zone.Valid (letters : List UInt8) : Zone → Prop
  | .utc letter => letter ∈ letters
  | .offset sign hour minute => (sign = plus ∨ sign = dash) ∧ hour ≤ 23 ∧ minute ≤ 59

/-- The parts of a timestamp; `fraction` holds the digits after the dot, if there is one. -/
structure Stamp where
  year : Nat
  month : Nat
  day : Nat
  hour : Nat
  minute : Nat
  second : Nat
  fraction : Bytes
  zone : Zone

def Stamp.renderFraction (t : Stamp) : Bytes := if t.fraction = [] then [] else dot :: t.fraction

/-- The text of a timestamp, with the byte that separates date and time. -/
def Stamp.render (separator : UInt8) (t : Stamp) : Bytes :=
  fourDigits t.year ++ dash :: twoDigits t.month ++ dash :: twoDigits t.day ++
    separator :: twoDigits t.hour ++ colon :: twoDigits t.minute ++ colon :: twoDigits t.second ++
    t.renderFraction ++ t.zone.render

/-- An existing date and time of day. -/
structure Stamp.Valid (maxSecond : Nat) (letters : List UInt8) (t : Stamp) : Prop where
  year : t.year ≤ 9999
  month : 1 ≤ t.month ∧ t.month ≤ 12
  day : 1 ≤ t.day ∧ t.day ≤ daysInMonth t.year t.month
  hour : t.hour ≤ 23
  minute : t.minute ≤ 59
  second : t.second ≤ maxSecond
  fraction : ∀ b ∈ t.fraction, isDigit b = true
  zone : t.zone.Valid letters

/-- What the RFC 3339 parser is relied on for. It may accept any separator, a lower-case `z`, a leap
second and a fraction of any length; it must accept what RFC 3339 requires apart from leap seconds. -/
structure Rfc3339Parser (parse : Bytes → Bool) : Prop where
  sound : ∀ ts, parse ts = true →
    ∃ separator t, t.Valid 60 [upperZ, 0x7a] ∧ ts = Stamp.render separator t
  complete : ∀ t : Stamp, t.Valid 59 [upperZ] → parse (t.render upperT) = true

/-- RFC 5424 allows at most six digits of a fraction, an upper-case `T` and `Z`, and no leap second. -/
def Timestamp (ts : Bytes) : Prop :=
  ts = [dash] ∨
    ∃ t : Stamp, t.Valid 59 [upperZ] ∧ t.fraction.length ≤ 6 ∧ ts = t.render upperT

/-! ### Names, structured data and the message -/

def Utf8 (bytes : Bytes) : Prop := ∃ text : List Char, bytes = text.flatMap String.utf8EncodeChar

/-- A header field of at most `limit` printable bytes. -/
def Name (limit : Nat) (s : Bytes) : Prop :=
  s ≠ [] ∧ s.length ≤ limit ∧ ∀ b ∈ s, isPrintable b = true

def SdName (s : Bytes) : Prop := Name 32 s ∧ ∀ b ∈ s, b ≠ equals ∧ b ≠ close ∧ b ≠ quote

/-- The tokens of a parameter value. A backslash that escapes nothing stands for itself. -/
inductive Tokens : Bytes → Prop where
  | nil : Tokens []
  | escape {b : UInt8} {rest : Bytes} (h : isEscapable b = true) (hrest : Tokens rest) :
      Tokens (backslash :: b :: rest)
  | byte {b : UInt8} {rest : Bytes} (h : b ≠ quote ∧ b ≠ close ∧ b ≠ backslash)
      (hrest : Tokens rest) : Tokens (b :: rest)
  | lone {b : UInt8} {rest : Bytes} (h : isEscapable b = false) (hrest : Tokens (b :: rest)) :
      Tokens (backslash :: b :: rest)

inductive Params : Bytes → Prop where
  | nil : Params []
  | cons {name value rest : Bytes} (hname : SdName name) (htokens : Tokens value)
      (hvalue : Utf8 value) (hrest : Params rest) :
      Params (space :: name ++ equals :: quote :: value ++ quote :: rest)

/-- Elements with their ids. -/
inductive Elements : List Bytes → Bytes → Prop where
  | nil : Elements [] []
  | cons {id params rest : Bytes} {ids : List Bytes} (hid : SdName id) (hparams : Params params)
      (hrest : Elements ids rest) : Elements (id :: ids) (open_ :: id ++ params ++ close :: rest)

def StructuredData (sd : Bytes) : Prop :=
  sd = [dash] ∨ ∃ ids, ids ≠ [] ∧ ids.Nodup ∧ Elements ids sd

def byteOrderMark : Bytes := [0xef, 0xbb, 0xbf]

/-- Nothing, or a space and a message body; a body that begins with a byte order mark is UTF-8. -/
def Tail (tail : Bytes) : Prop :=
  tail = [] ∨ ∃ body, tail = space :: body ∧ (byteOrderMark <+: body → Utf8 body)

inductive Rfc5424 : Bytes → Prop where
  | message {pri : Nat} {ts host app proc msgid sd tail : Bytes} (hpri : pri ≤ 191)
      (hts : Timestamp ts) (hhost : Name 255 host) (happ : Name 48 app) (hproc : Name 128 proc)
      (hmsgid : Name 32 msgid) (hsd : StructuredData sd) (htail : Tail tail) :
      Rfc5424 (less :: decimal pri ++ greater :: 0x31 :: space :: ts ++ space :: host ++
        space :: app ++ space :: proc ++ space :: msgid ++ space :: sd ++ tail)

end SyslogDtlsAgent
