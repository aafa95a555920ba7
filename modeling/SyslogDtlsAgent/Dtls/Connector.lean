import SyslogDtlsAgent.Core.Config
import SyslogDtlsAgent.Dtls.Session
import SyslogDtlsAgent.Library.Traced

/-!
# The calls of the OpenSSL adapter

`connect` and the methods of `OpenSslSession` in `dtls-openssl/src/lib.rs`, with the calls they make to the
socket and to OpenSSL. An association is one socket with its SSL object, from the bind in `connect` to the
drop. What the calls return is a parameter. `connect` comes in two parts, before its loop and one round of
it, since the relay's other threads run between the rounds.
-/

namespace SyslogDtlsAgent

open Library

/-- A call on the socket or the SSL object of one association, with what it returns where that matters. -/
inductive SslCall where
  /-- A socket bound to a local address. -/
  | bind (address : String)
  | connectSocket (remote : SocketAddr)
  | setNonblocking
  | new
  | setHostflags
  | setIp (ip : IpAddr)
  | setHost (name : String)
  | setHostname (name : String)
  | setConnectState
  | setMtu (bytes : Nat)
  /-- A datagram BIO handed over to the SSL object. -/
  | setBio
  | clearError
  | connect (result : Int)
  | read (length result : Int)
  | write (bytes : Bytes) (length result : Int)
  | getError (result error : Int)
  | handleTimeout (result : Int)
  | verifyResult (error : Option String)
  | peerCertificate (present : Bool)
  | dataMtu (bytes : Nat)
  /-- The read-only calls of `peer_info`. -/
  | peerInfo
  | shutdown
  | free
  | closeSocket
  deriving DecidableEq

abbrev SslM := Traced SslCall String

/-- What the calls of `connect` before its loop return. -/
structure Opening where
  bind : Except String Unit
  connectSocket : Except String Unit
  setNonblocking : Except String Unit
  /-- `Ssl::new` succeeds. -/
  new : Bool
  /-- `set_ip` or `set_host` succeeds. -/
  setIdentity : Bool
  setHostname : Bool
  setMtu : Bool
  /-- `BIO_new_dgram` returns a BIO. -/
  newBio : Bool
  /-- `BIO_ctrl` with `BIO_CTRL_DGRAM_SET_CONNECTED`. -/
  setConnected : Int

def ioError (error : String) : String := "DTLS socket error: " ++ error

def cryptoError : String := "OpenSSL could not initialize security settings"

/-- A call on the socket, which can fail with an I/O error. -/
def socketCall (call : SslCall) (result : Except String Unit) : SslM Unit := do
  Traced.call call
  .lift (result.mapError ioError)

/-- A call on the SSL object that only initializes it. -/
def settingCall (call : SslCall) (succeeds : Bool) : SslM Unit := do
  Traced.call call
  .lift (if succeeds then .ok () else .error cryptoError)

/-- What dropping an `OpenSslSession` does: `close` unless it was closed, then its fields in order. -/
def dropSession (closed : Bool) : List SslCall :=
  (if closed then [] else [.clearError, .shutdown]) ++ [.free, .closeSocket]

namespace OpenSslConnector

variable (lib : External) (cfg : Config)

/-- How the server's certificate is going to be checked, and the name sent to it. -/
def setIdentity (o : Opening) (name : String) : SslM Unit := do
  Traced.call .setHostflags
  match parseIpAddr name with
  | some ip => settingCall (.setIp ip) o.setIdentity
  | none =>
      settingCall (.setHost name) o.setIdentity
      settingCall (.setHostname name) o.setHostname

/-- The settings of a new SSL object, up to its BIO. -/
def prepare (o : Opening) : SslM Unit := do
  let name ← Traced.lift (cfg.serverName lib)
  setIdentity o name
  Traced.call .setConnectState
  settingCall (.setMtu cfg.dtls.datagramBytes) o.setMtu
  Traced.lift (reject (!o.newBio) "Cannot create DTLS datagram BIO")
  Traced.lift (reject (decide (o.setConnected ≤ 0)) "Cannot connect datagram BIO")
  Traced.call .setBio

/-- `connect` before its loop. A failure drops what there is by then, the SSL object before the socket. -/
def opening (o : Opening) (remote : SocketAddr) : SslM Unit :=
  match o.bind with
  | .error e => .fail (ioError e)
  | .ok () => do
      Traced.call (.bind (if remote.ip.isV4 then "0.0.0.0:0" else "[::]:0"))
      Traced.onError [.closeSocket] do
        socketCall (.connectSocket remote) o.connectSocket
        socketCall .setNonblocking o.setNonblocking
        Traced.lift (reject (!o.new) cryptoError)
        Traced.call .new
        Traced.onError [.free] (prepare lib cfg o)

end OpenSslConnector

namespace OpenSslSession

def checkResultCalls (ssl : Ssl) (result : Int) : SslM Unit :=
  let error := ssl.getError result
  ⟨checkResult ssl result,
    .getError result error :: if error = 2 ∨ error = 3 ∨ error = 6 then [] else [.verifyResult ssl.verifyError]⟩

def handleTimeoutCalls (ssl : Ssl) : SslM Unit := ⟨handleTimeout ssl, [.handleTimeout ssl.handleTimeout]⟩

/-- What OpenSSL returns in one round of the loop of `connect` and after it. -/
structure Round where
  connect : Int
  certificate : Bool
  dataMtu : Nat

/-- The end of `connect`, once the handshake is complete. -/
def verify (ssl : Ssl) (r : Round) : SslM OpenSslSession := do
  Traced.call (.verifyResult ssl.verifyError)
  Traced.lift (reject ssl.verifyError.isSome "Server certificate verification failed")
  Traced.call (.peerCertificate r.certificate)
  Traced.lift (reject (!r.certificate) "Server certificate verification failed")
  Traced.call (.dataMtu r.dataMtu)
  .lift (connected r.dataMtu)

/-- One round of the loop of `connect`: a session, or another round. A failure drops the session. -/
def round (cancelled : Bool) (until_ now : Instant) (ssl : Ssl) (r : Round) : SslM (Option OpenSslSession) :=
  Traced.onError (dropSession false) do
    Traced.lift (reject cancelled "DTLS handshake cancelled")
    Traced.call .clearError
    Traced.call (.connect r.connect)
    if r.connect = 1 then
      let session ← verify ssl r
      return some session
    else
      checkResultCalls ssl r.connect
      handleTimeoutCalls ssl
      Traced.lift (reject (decide (until_ ≤ now)) "DTLS handshake timed out")
      return none

/-- `send` with its calls. -/
def sendCalls (session : OpenSslSession) (ssl : Ssl) (frame : Bytes) : SslM WriteOutcome :=
  if session.mtu < frame.length ∨ frame = [] then .fail budgetError
  else
    let result := ssl.write frame (cInt frame.length)
    do
      Traced.call .clearError
      Traced.call (.write frame (cInt frame.length) result)
      if result = cInt frame.length then return .sent
      else if 0 < result then .fail "Unexpected partial DTLS write"
      else
        checkResultCalls ssl result
        handleTimeoutCalls ssl
        return .wouldBlock

theorem sendCalls_result (session : OpenSslSession) (ssl : Ssl) (frame : Bytes) :
    (session.sendCalls ssl frame).result = session.send ssl frame := by
  unfold sendCalls send
  split
  · rfl
  · simp only [Traced.result_bind, Traced.result_call, Except.bind]
    split_ifs
    · rfl
    · rfl
    · simp only [Traced.result_bind, Traced.result_pure, checkResultCalls, handleTimeoutCalls]
      rfl

def poll (ssl : Ssl) (read : Int) : SslM Unit := do
  Traced.call .clearError
  Traced.call (.read (cInt 16384) read)
  if read ≤ 0 then checkResultCalls ssl read
  handleTimeoutCalls ssl

/-- `close` followed by the drop. -/
def closeCalls : List SslCall := [.clearError, .shutdown] ++ dropSession true

end OpenSslSession

end SyslogDtlsAgent
