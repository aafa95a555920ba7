import Mathlib

/-!
# The third-party parsers

Code the agent calls and this development does not read: the `time` parser for RFC 3339, `idna`, `url`
and `form_urlencoded`. Each is a field, so everything above is about whatever these functions compute;
a result that relies on what one of them accepts names that as a hypothesis. The module also holds the
two string conversions of the standard library that several modules share.
-/

namespace SyslogDtlsAgent

/-- A monotonic or wall-clock instant, in seconds. -/
abbrev Instant := ℚ

abbrev Duration := ℚ

/-- `Duration::from_millis`. -/
def fromMillis (ms : Nat) : Duration := (ms : ℚ) / 1000

abbrev Bytes := List UInt8

/-- What `url::Url` keeps of a parsed URL and the agent reads. -/
structure Url where
  scheme : String
  username : String
  password : Option String
  host : Option String
  path : String
  query : Option String
  fragment : Option String
  /-- `url.origin().ascii_serialization()`. -/
  origin : String

structure External where
  /-- `OffsetDateTime::parse(_, &Rfc3339).is_ok()`. -/
  rfc3339 : Bytes → Bool
  /-- `idna::domain_to_ascii_strict`. -/
  domainToAsciiStrict : String → Option String
  /-- `Url::parse`. -/
  urlParse : String → Option Url
  /-- `form_urlencoded::parse`: the decoded name and value pairs of a query. -/
  formUrlencoded : String → List (String × String)

/-- `std::str::from_utf8(_).is_ok()`. -/
def isUtf8 (bytes : Bytes) : Bool := bytes.toByteArray.validateUTF8

theorem isUtf8_iff {bytes : Bytes} :
    isUtf8 bytes = true ↔ ∃ text : List Char, bytes = text.flatMap String.utf8EncodeChar := by
  rw [isUtf8, ByteArray.validateUTF8_eq_true_iff]
  constructor
  · rintro ⟨text, htext⟩
    refine ⟨text, ?_⟩
    have hdata := congrArg (fun b : ByteArray => b.data.toList) htext
    simpa only [List.utf8Encode, List.data_toByteArray, List.toList_toArray] using hdata
  · rintro ⟨text, rfl⟩
    exact ⟨text, rfl⟩

/-- `str::as_bytes`. -/
def asBytes (text : String) : Bytes := text.toList.flatMap String.utf8EncodeChar

end SyslogDtlsAgent
