import Mathlib

/-!
# Strings

The methods of `str` that the agent calls, each defined over the list of characters and named after
the Rust method. Comparisons of byte strings and of character strings agree on valid UTF-8, so
nothing here depends on the encoding except `len`, which counts bytes.
-/

namespace SyslogDtlsAgent.Text

/-- `str::len`. -/
def len (s : String) : Nat := s.utf8ByteSize

def startsWith (s pat : String) : Bool := pat.toList.isPrefixOf s.toList

/-- `str::contains` with a character. -/
def containsChar (s : String) (c : Char) : Bool := s.toList.contains c

/-- `str::contains` with a string. -/
def contains (s pat : String) : Bool := decide (pat.toList <:+: s.toList)

/-- `str::replace` of a character by a string. -/
def replaceChar (s : String) (c : Char) (by_ : String) : String :=
  String.ofList (s.toList.flatMap fun d => if d == c then by_.toList else [d])

/-- `str::split` with a character. -/
def split (s : String) (c : Char) : List String := (s.toList.splitOn c).map String.ofList

/-- `str::split_once` with a character: what stands before and after its first occurrence. -/
def splitOnce (s : String) (c : Char) : Option (String × String) :=
  if c ∈ s.toList then
    some (String.ofList (s.toList.takeWhile (· != c)),
      String.ofList ((s.toList.dropWhile (· != c)).drop 1))
  else
    none

/-- `char::is_whitespace`: the Unicode property White_Space. -/
def isWhitespace (c : Char) : Bool :=
  (9 ≤ c.toNat && c.toNat ≤ 13) || c.toNat == 0x20 || c.toNat == 0x85 || c.toNat == 0xA0 ||
    c.toNat == 0x1680 || (0x2000 ≤ c.toNat && c.toNat ≤ 0x200A) || c.toNat == 0x2028 ||
    c.toNat == 0x2029 || c.toNat == 0x202F || c.toNat == 0x205F || c.toNat == 0x3000

def trim (s : String) : String :=
  String.ofList (((s.toList.dropWhile isWhitespace).reverse.dropWhile isWhitespace).reverse)

/-- `str::trim_end_matches` with a character. -/
def trimEndMatches (s : String) (c : Char) : String :=
  String.ofList ((s.toList.reverse.dropWhile (· == c)).reverse)

/-- `char::to_ascii_lowercase`. -/
def asciiLower (c : Char) : Char :=
  if 'A' ≤ c ∧ c ≤ 'Z' then Char.ofNat (c.toNat + 32) else c

def toAsciiLowercase (s : String) : String := String.ofList (s.toList.map asciiLower)

def eqIgnoreAsciiCase (s t : String) : Bool := s.toList.map asciiLower == t.toList.map asciiLower

/-- `u8::is_ascii_alphanumeric`. -/
def isAsciiAlphanumeric (c : Char) : Bool :=
  ('0' ≤ c && c ≤ '9') || ('a' ≤ c && c ≤ 'z') || ('A' ≤ c && c ≤ 'Z')

end SyslogDtlsAgent.Text
