import SyslogDtlsAgent.Core.External
import SyslogDtlsAgent.Core.Status

/-!
# The OpenSSL session

`OpenSslSession` of `dtls-openssl/src/lib.rs` as far as the sender uses it for writing. What the
library calls return is a parameter; the payload budget is a field with the bounds the connector
establishes.
-/

namespace SyslogDtlsAgent

/-- `as c_int`, a signed integer of 32 bits. -/
def cInt (n : Nat) : Int := (BitVec.ofNat 32 n).toInt

theorem cInt_of_small {n : Nat} (h : n ≤ 16384) : cInt n = n := by
  rw [cInt, BitVec.toInt_ofNat', Int.bmod_eq_of_le] <;> omega

structure OpenSslSession where
  mtu : Nat
  bounded : mtu ≤ 16384
  positive : mtu ≠ 0

/-- What the OpenSSL calls of one operation return. -/
structure Ssl where
  /-- `SSL_write` of a buffer and its length. -/
  write : Bytes → Int → Int
  /-- `SSL_get_error` for a result. -/
  getError : Int → Int
  /-- The text of `SSL_get_verify_result` unless it is `OK`. -/
  verifyError : Option String
  /-- `DTLSv1_handle_timeout`. -/
  handleTimeout : Int

namespace OpenSslSession

/-- The last lines of `connect`: the budget OpenSSL reports after the handshake. -/
def connected (dataMtu : Nat) : Except String OpenSslSession :=
  if h : min dataMtu 16384 = 0 then .error "OpenSSL returned no DTLS payload budget"
  else .ok ⟨min dataMtu 16384, Nat.min_le_right _ _, h⟩

def maxPlaintext (session : OpenSslSession) : Nat := session.mtu

def checkResult (ssl : Ssl) (result : Int) : Except String Unit :=
  let error := ssl.getError result
  -- SSL_ERROR_WANT_READ and SSL_ERROR_WANT_WRITE
  if error = 2 ∨ error = 3 then .ok ()
  -- SSL_ERROR_ZERO_RETURN
  else if error = 6 then .error "Collector closed the DTLS association"
  else
    match ssl.verifyError with
    | some text => .error ("Server certificate rejected: " ++ text)
    | none =>
        .error ("DTLS operation failed (OpenSSL category " ++ toString error ++
          "); check collector, client identity, and network")

def handleTimeout (ssl : Ssl) : Except String Unit :=
  if ssl.handleTimeout < 0 then .error "DTLS timer processing failed" else .ok ()

def budgetError : String := "Frame exceeds the DTLS record budget"

def send (session : OpenSslSession) (ssl : Ssl) (frame : Bytes) : Except String WriteOutcome :=
  if session.mtu < frame.length ∨ frame = [] then .error budgetError
  else
    let result := ssl.write frame (cInt frame.length)
    if result = cInt frame.length then .ok .sent
    else if 0 < result then .error "Unexpected partial DTLS write"
    else do
      checkResult ssl result
      handleTimeout ssl
      .ok .wouldBlock

end OpenSslSession

/-- Two texts that begin differently differ. -/
private theorem append_ne_of_head {front back other : String} {c d : Char}
    (hfront : front.toList.head? = some c) (hother : other.toList.head? = some d) (hne : c ≠ d) :
    front ++ back ≠ other := by
  intro heq
  have hhead := congrArg (fun s : String => s.toList.head?) heq
  simp only [String.toList_append, List.head?_append, hfront, Option.some_or, hother,
    Option.some.injEq] at hhead
  exact hne hhead

/-- A frame within the budget never meets the budget error. -/
theorem OpenSslSession.send_within_budget {session : OpenSslSession} {frame : Bytes}
    (hlength : frame.length ≤ session.mtu) (hframe : frame ≠ []) (ssl : Ssl) :
    session.send ssl frame ≠ .error budgetError := by
  have hcheck : ∀ result, checkResult ssl result ≠ .error budgetError := by
    intro result
    simp only [checkResult]
    split_ifs
    · simp
    · simp [budgetError]
    · split
      · rename_i text _
        intro heq
        exact append_ne_of_head (c := 'S') (d := 'F') rfl rfl (by decide) (Except.error.inj heq)
      · intro heq
        have := Except.error.inj heq
        rw [String.append_assoc] at this
        exact append_ne_of_head (c := 'D') (d := 'F') rfl rfl (by decide) this
  have htimeout : handleTimeout ssl ≠ .error budgetError := by
    unfold handleTimeout
    split <;> simp [budgetError]
  unfold send
  rw [if_neg (by rintro (hlarge | hempty) <;> [omega; exact hframe hempty])]
  simp only
  split_ifs
  · simp
  · simp [budgetError]
  · cases hresult : checkResult ssl (ssl.write frame (cInt frame.length)) with
    | error e =>
        exact fun heq => hcheck _ (hresult.trans (congrArg Except.error (Except.error.inj heq)))
    | ok _ =>
        cases htimer : handleTimeout ssl with
        | error e =>
            exact fun heq => htimeout (htimer.trans (congrArg Except.error (Except.error.inj heq)))
        | ok _ => nofun

end SyslogDtlsAgent
