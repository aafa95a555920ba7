import SyslogDtlsAgent.Core.Serde
import SyslogDtlsAgent.Dtls.Connector

/-!
# How an SSL object is to be used

`sslProtocol` is what the comments of the adapter ask of its calls, as a protocol over one association: the
name to check is set before the handshake, nothing is read or written before the handshake is complete and
the certificate verified, the error queue is cleared before an operation and its category asked for right
after it failed, a write that would block is only retried with its own bytes, and what was connected is shut
down once and freed before its socket is closed. Each method of the adapter keeps it.
-/

namespace SyslogDtlsAgent

open Library

/-- How far an association has come. -/
inductive Stage where
  | unbound
  | bound
  | connected
  | nonblocking
  | created
  | flagged
  | hosted
  | named
  | client
  | sized
  | handshaking
  | complete
  | verified
  | certified
  | ready
  /-- A write of these bytes would block. -/
  | retry (bytes : Bytes)
  /-- Something failed for good. -/
  | broken
  | shut
  | freed
  | released
  deriving DecidableEq

/-- The SSL object has its BIO and is not shut down. -/
def Stage.isOpen : Stage → Bool
  | .handshaking | .complete | .verified | .certified | .ready | .retry _ | .broken => true
  | _ => false

/-- There is an SSL object that needs no shutdown. -/
def Stage.isIdle : Stage → Bool
  | .created | .flagged | .hosted | .named | .client | .sized | .shut => true
  | _ => false

/-- There is a socket without an SSL object. -/
def Stage.isBare : Stage → Bool
  | .bound | .connected | .nonblocking | .freed => true
  | _ => false

structure SslState where
  stage : Stage
  /-- The error queue was cleared by the last call. -/
  cleared : Bool
  /-- The operation that has just failed, while its category has not been asked for. -/
  failed : Option Int
  deriving DecidableEq

/-- Between two operations. -/
def SslState.rest (stage : Stage) : SslState := ⟨stage, false, none⟩

/-- A call that leads from one stage to the next. -/
def SslState.move (s : SslState) (source target : Stage) : Option SslState :=
  if s = .rest source then some (.rest target) else none

/-- What a call needs and where it leads; `name` is what the server's certificate is checked for. -/
def sslStep (name : String) (s : SslState) : SslCall → Option SslState
  | .bind _ => s.move .unbound .bound
  | .connectSocket _ => s.move .bound .connected
  | .setNonblocking => s.move .connected .nonblocking
  | .new => s.move .nonblocking .created
  | .setHostflags => s.move .created .flagged
  | .setIp ip => if parseIpAddr name = some ip then s.move .flagged .named else none
  | .setHost host => if parseIpAddr name = none ∧ host = name then s.move .flagged .hosted else none
  | .setHostname host => if host = name then s.move .hosted .named else none
  | .setConnectState => s.move .named .client
  | .setMtu _ => s.move .client .sized
  | .setBio => s.move .sized .handshaking
  | .clearError => if s.stage.isOpen ∧ s.failed = none then some { s with cleared := true } else none
  | .connect result =>
      if s = ⟨.handshaking, true, none⟩ then
        some (if result = 1 then .rest .complete else ⟨.handshaking, false, some result⟩)
      else none
  | .read length result =>
      if s = ⟨.ready, true, none⟩ ∧ length = 16384 then
        some (if result ≤ 0 then ⟨.ready, false, some result⟩ else .rest .ready)
      else none
  | .write bytes length result =>
      if (s = ⟨.ready, true, none⟩ ∨ s = ⟨.retry bytes, true, none⟩) ∧ length = bytes.length ∧ 0 < length ∧
          length ≤ 16384 then
        some (if result = length then .rest .ready
          else if 0 < result then .rest .broken
          else ⟨.retry bytes, false, some result⟩)
      else none
  | .getError result error =>
      if s.failed = some result then some (.rest (if error = 2 ∨ error = 3 then s.stage else .broken)) else none
  | .handleTimeout result =>
      if s.stage.isOpen ∧ s = .rest s.stage then some (if result < 0 then .rest .broken else s) else none
  | .verifyResult error =>
      if s = .rest .complete then some (.rest (if error = none then .verified else .broken))
      else if s = .rest .broken then some s
      else none
  | .peerCertificate present => s.move .verified (if present then .certified else .broken)
  | .dataMtu bytes => s.move .certified (if bytes = 0 then .broken else .ready)
  | .peerInfo => s.move .ready .ready
  | .shutdown => if s.stage.isOpen ∧ s.cleared ∧ s.failed = none then some (.rest .shut) else none
  | .free => if s.stage.isIdle then some (.rest .freed) else none
  | .closeSocket => if s.stage.isBare then some (.rest .released) else none

def sslProtocol (name : String) : Protocol SslState SslCall := ⟨sslStep name⟩

variable {name : String}

@[simp] theorem SslState.move_rest (source target : Stage) :
    (SslState.rest source).move source target = some (.rest target) := if_pos rfl

theorem keeps_step {call : SslCall} {s : SslState} (s' : SslState) {E : String → SslState → Prop}
    (h : sslStep name s call = some s') :
    (sslProtocol name).Keeps (· = s) (.call call) (fun _ t => t = s') E :=
  Protocol.keeps_call fun _ hs => ⟨s', hs ▸ h, rfl⟩

/-- Nothing is called, and only a failure goes another way. -/
theorem keeps_reject {source : Stage} {failing : Bool} {error : String} {E : String → SslState → Prop}
    (herror : ∀ e, E e (.rest source)) :
    (sslProtocol name).Keeps (· = .rest source) (.lift (reject failing error)) (fun _ s => s = .rest source) E :=
  Protocol.keeps_lift (fun _ _ _ hs => hs) fun e _ _ hs => hs ▸ herror e

/-- Shutting down and dropping releases whatever was open. -/
theorem dropSession_run {stage : Stage} (h : stage.isOpen = true) :
    (sslProtocol name).run (.rest stage) (dropSession false) = some (.rest .released) := by
  simp only [dropSession, sslProtocol, Protocol.run, sslStep, SslState.rest, h, Stage.isIdle, Stage.isBare,
    List.cons_append, List.nil_append, Bool.false_eq_true, if_false, and_self, if_true, Option.bind_some]

theorem closeCalls_run {stage : Stage} (h : stage.isOpen = true) :
    (sslProtocol name).run (.rest stage) OpenSslSession.closeCalls = some (.rest .released) :=
  dropSession_run h

/-- After the release no call is allowed. -/
theorem released_stuck {calls : List SslCall} {s : SslState}
    (h : (sslProtocol name).run (.rest .released) calls = some s) : calls = [] := by
  cases calls with
  | nil => rfl
  | cons call rest =>
      have hnone : (sslProtocol name).step (.rest .released) call = none := by
        cases call <;> simp [sslProtocol, sslStep, SslState.rest, SslState.move, Stage.isOpen, Stage.isIdle,
          Stage.isBare]
      rw [Protocol.run, hnone] at h
      cases h

/-! ### The operations -/

theorem checkResult_keeps (ssl : Ssl) (result : Int) (stage : Stage) :
    (sslProtocol name).Keeps (· = ⟨stage, false, some result⟩) (OpenSslSession.checkResultCalls ssl result)
      (fun _ s => s = .rest stage) (fun _ s => s = .rest .broken) := by
  rintro s rfl
  unfold OpenSslSession.checkResultCalls OpenSslSession.checkResult
  simp only [sslProtocol, Protocol.run, sslStep, if_true, Option.bind_some]
  generalize ssl.getError result = error
  by_cases hwant : error = 2 ∨ error = 3
  · have hasked : error = 2 ∨ error = 3 ∨ error = 6 := by tauto
    simp only [if_pos hwant, if_pos hasked, Protocol.run]
    exact ⟨_, rfl, fun _ _ => rfl, nofun⟩
  · simp only [if_neg hwant]
    by_cases hclosed : error = 6
    · have hasked : error = 2 ∨ error = 3 ∨ error = 6 := .inr (.inr hclosed)
      simp only [if_pos hclosed, if_pos hasked, Protocol.run]
      exact ⟨_, rfl, nofun, fun _ _ => rfl⟩
    · have hasked : ¬(error = 2 ∨ error = 3 ∨ error = 6) := by tauto
      simp only [if_neg hclosed, if_neg hasked, Protocol.run, sslStep]
      refine ⟨.rest .broken, rfl, ?_, fun _ _ => rfl⟩
      cases ssl.verifyError <;> nofun

theorem handleTimeout_keeps (ssl : Ssl) {stage : Stage} (h : stage.isOpen = true) :
    (sslProtocol name).Keeps (· = .rest stage) (OpenSslSession.handleTimeoutCalls ssl)
      (fun _ s => s = .rest stage) (fun _ s => s = .rest .broken) := by
  rintro s rfl
  unfold OpenSslSession.handleTimeoutCalls OpenSslSession.handleTimeout
  have hstep : (sslProtocol name).run (.rest stage) [.handleTimeout ssl.handleTimeout] =
      some (if ssl.handleTimeout < 0 then .rest .broken else .rest stage) := by
    simp only [sslProtocol, Protocol.run, sslStep, SslState.rest, h, and_self, if_true, Option.bind_some]
  refine ⟨_, hstep, ?_⟩
  by_cases hfailed : ssl.handleTimeout < 0
  · simp only [if_pos hfailed]
    exact ⟨nofun, fun _ _ => trivial⟩
  · simp only [if_neg hfailed]
    exact ⟨fun _ _ => trivial, nofun⟩

theorem clearError_keeps {stage : Stage} (h : stage.isOpen = true) {E : String → SslState → Prop} :
    (sslProtocol name).Keeps (· = .rest stage) (.call .clearError) (fun _ s => s = ⟨stage, true, none⟩) E :=
  keeps_step _ (if_pos ⟨h, rfl⟩)

/-- The operation is over and left the SSL object open. -/
def Settled (s : SslState) : Prop := ∃ stage, stage.isOpen = true ∧ s = .rest stage

theorem Settled.broken : Settled (.rest .broken) := ⟨.broken, rfl, rfl⟩

theorem keeps_settled {α : Type} {x : SslM α} {P : SslState → Prop} {Q : α → SslState → Prop}
    (h : (sslProtocol name).Keeps P x Q fun _ s => s = .rest .broken) :
    (sslProtocol name).Keeps P x Q fun _ s => Settled s :=
  Protocol.keeps_mono h (fun _ hs => hs) (fun _ _ hq => hq) fun _ _ he => he ▸ .broken

/-- What follows an operation that has not succeeded: its category, then the timer. -/
theorem retry_keeps (ssl : Ssl) (result : Int) (stage : Stage) (h : stage.isOpen = true) {α : Type} (value : α) :
    (sslProtocol name).Keeps (· = ⟨stage, false, some result⟩)
      (do
        OpenSslSession.checkResultCalls ssl result
        OpenSslSession.handleTimeoutCalls ssl
        return value)
      (fun a s => a = value ∧ s = .rest stage) (fun _ s => Settled s) :=
  Protocol.keeps_bind (keeps_settled (checkResult_keeps ssl result stage)) fun _ =>
    Protocol.keeps_bind (keeps_settled (handleTimeout_keeps ssl h)) fun _ =>
      Protocol.keeps_ok fun _ hs => ⟨rfl, hs⟩

theorem poll_keeps (name : String) (ssl : Ssl) (read : Int) :
    (sslProtocol name).Keeps (· = .rest .ready) (OpenSslSession.poll ssl read)
      (fun _ s => s = .rest .ready) (fun _ s => Settled s) := by
  have hlength : cInt 16384 = 16384 := cInt_of_small (Nat.le_refl _)
  have hread : sslStep name ⟨.ready, true, none⟩ (.read (cInt 16384) read) =
      some (if read ≤ 0 then ⟨.ready, false, some read⟩ else .rest .ready) := by
    simp only [sslStep, hlength, and_self, if_true]
  refine Protocol.keeps_bind (clearError_keeps rfl) fun _ => Protocol.keeps_bind (keeps_step _ hread) fun _ => ?_
  by_cases hfailed : read ≤ 0
  · simp only [if_pos hfailed]
    exact Protocol.keeps_bind (keeps_settled (checkResult_keeps ssl read .ready)) fun _ =>
      keeps_settled (handleTimeout_keeps ssl rfl)
  · simp only [if_neg hfailed]
    exact keeps_settled (handleTimeout_keeps ssl rfl)

/-- Where a write leaves the SSL object. -/
def WriteOutcome.stage (bytes : Bytes) : WriteOutcome → Stage
  | .sent => .ready
  | .wouldBlock => .retry bytes

theorem sendCalls_keeps (name : String) (session : OpenSslSession) (ssl : Ssl) (bytes : Bytes) {stage : Stage}
    (hstage : stage = .ready ∨ stage = .retry bytes) :
    (sslProtocol name).Keeps (· = .rest stage) (session.sendCalls ssl bytes)
      (fun outcome s => s = .rest (outcome.stage bytes)) (fun _ s => Settled s) := by
  have hopen : stage.isOpen = true := by rcases hstage with rfl | rfl <;> rfl
  unfold OpenSslSession.sendCalls
  split
  · exact Protocol.keeps_fail fun s hs => ⟨stage, hopen, hs⟩
  · rename_i hbudget
    obtain ⟨hlength, hne⟩ := not_or.mp hbudget
    have hsmall : bytes.length ≤ 16384 := (Nat.le_of_not_lt hlength).trans session.bounded
    have hcast : cInt bytes.length = bytes.length := cInt_of_small hsmall
    have hpositive : 0 < bytes.length := List.length_pos_iff.mpr hne
    generalize hresult : ssl.write bytes (cInt bytes.length) = result
    have hwrite : sslStep name ⟨stage, true, none⟩ (.write bytes (cInt bytes.length) result) =
        some (if result = cInt bytes.length then .rest .ready
          else if 0 < result then .rest .broken
          else ⟨.retry bytes, false, some result⟩) := by
      refine if_pos ⟨?_, hcast, ?_, ?_⟩
      · rcases hstage with rfl | rfl
        · exact .inl rfl
        · exact .inr rfl
      · omega
      · omega
    refine Protocol.keeps_bind (clearError_keeps hopen) fun _ => Protocol.keeps_bind (keeps_step _ hwrite) fun _ => ?_
    by_cases hsent : result = cInt bytes.length
    · simp only [if_pos hsent]
      exact Protocol.keeps_ok fun _ hs => hs
    · simp only [if_neg hsent]
      by_cases hpartial : 0 < result
      · simp only [if_pos hpartial]
        exact Protocol.keeps_fail fun _ hs => hs ▸ .broken
      · simp only [if_neg hpartial]
        refine Protocol.keeps_mono (retry_keeps ssl result (.retry bytes) rfl WriteOutcome.wouldBlock)
          (fun _ hs => hs) ?_ (fun _ _ he => he)
        rintro _ _ ⟨rfl, hs⟩
        exact hs

/-! ### `connect` -/

theorem settingCall_keeps {call : SslCall} {source : Stage} (target : Stage) (succeeds : Bool)
    {E : String → SslState → Prop} (h : sslStep name (.rest source) call = some (.rest target))
    (herror : ∀ e, E e (.rest target)) :
    (sslProtocol name).Keeps (· = .rest source) (settingCall call succeeds) (fun _ s => s = .rest target) E :=
  Protocol.keeps_bind (keeps_step _ h) fun _ =>
    Protocol.keeps_lift (fun _ _ _ hs => hs) fun e _ _ hs => hs ▸ herror e

theorem socketCall_keeps {call : SslCall} {source : Stage} (target : Stage) (result : Except String Unit)
    {E : String → SslState → Prop} (h : sslStep name (.rest source) call = some (.rest target))
    (herror : ∀ e, E e (.rest target)) :
    (sslProtocol name).Keeps (· = .rest source) (socketCall call result) (fun _ s => s = .rest target) E :=
  Protocol.keeps_bind (keeps_step _ h) fun _ =>
    Protocol.keeps_lift (fun _ _ _ hs => hs) fun e _ _ hs => hs ▸ herror e

/-- There is an SSL object that needs no shutdown yet. -/
def Idle (s : SslState) : Prop := ∃ stage, stage.isIdle = true ∧ s = .rest stage

theorem setIdentity_keeps (o : Opening) :
    (sslProtocol name).Keeps (· = .rest .created) (OpenSslConnector.setIdentity o name)
      (fun _ s => s = .rest .named) (fun _ s => Idle s) := by
  refine Protocol.keeps_bind (keeps_step _ rfl) fun _ => ?_
  cases hip : parseIpAddr name with
  | some ip =>
      refine settingCall_keeps .named o.setIdentity ?_ fun _ => ⟨.named, rfl, rfl⟩
      simp only [sslStep, hip, if_true, SslState.move_rest]
  | none =>
      refine Protocol.keeps_bind (settingCall_keeps .hosted o.setIdentity ?_
        fun _ => ⟨.hosted, rfl, rfl⟩) fun _ => settingCall_keeps .named o.setHostname ?_ fun _ => ⟨.named, rfl, rfl⟩
      · simp only [sslStep, hip, and_self, if_true, SslState.move_rest]
      · simp only [sslStep, if_true, SslState.move_rest]

/-- Nothing is left of an association. -/
def Over (s : SslState) : Prop := s = .rest .released ∨ s = .rest .unbound

section Connect

variable {lib : External} {cfg : Config} (hname : cfg.serverName lib = .ok name)

include hname

theorem prepare_keeps (o : Opening) :
    (sslProtocol name).Keeps (· = .rest .created) (OpenSslConnector.prepare lib cfg o)
      (fun _ s => s = .rest .handshaking) (fun _ s => Idle s) := by
  have hserver : (sslProtocol name).Keeps (· = .rest .created) (.lift (cfg.serverName lib))
      (fun name' s => name' = name ∧ s = .rest .created) (fun _ s => Idle s) := by
    refine Protocol.keeps_lift (fun name' _ hok hs => ⟨?_, hs⟩) fun e _ herror _ => ?_
    · rw [hname] at hok
      exact (Except.ok.inj hok).symm
    · rw [hname] at herror
      cases herror
  refine Protocol.keeps_bind hserver fun name' => ?_
  by_cases hsame : name' = name
  · subst hsame
    refine Protocol.keeps_mono (P := (· = .rest .created)) ?_ (fun _ hs => hs.2) (fun _ _ hq => hq)
      (fun _ _ he => he)
    refine Protocol.keeps_bind (setIdentity_keeps o) fun _ => ?_
    refine Protocol.keeps_bind (keeps_step (.rest .client) rfl) fun _ => ?_
    refine Protocol.keeps_bind (settingCall_keeps .sized o.setMtu rfl
      fun _ => ⟨.sized, rfl, rfl⟩) fun _ => ?_
    refine Protocol.keeps_bind (keeps_reject fun _ => ⟨.sized, rfl, rfl⟩) fun _ => ?_
    exact Protocol.keeps_bind (keeps_reject fun _ => ⟨.sized, rfl, rfl⟩) fun _ => keeps_step _ rfl
  · intro s hs
    exact absurd hs.1 hsame

theorem opening_keeps (o : Opening) (remote : SocketAddr) :
    (sslProtocol name).Keeps (· = .rest .unbound) (OpenSslConnector.opening lib cfg o remote)
      (fun _ s => s = .rest .handshaking) (fun _ s => Over s) := by
  unfold OpenSslConnector.opening
  cases o.bind with
  | error e => exact Protocol.keeps_fail fun _ hs => .inr hs
  | ok bound =>
      have hbare : ∀ stage : Stage, stage.isBare = true →
          (sslProtocol name).run (.rest stage) [.closeSocket] = some (.rest .released) := by
        intro stage hstage
        simp only [sslProtocol, Protocol.run, sslStep, SslState.rest, hstage, if_true, Option.bind_some]
      refine Protocol.keeps_bind (keeps_step (.rest .bound) rfl) fun _ => ?_
      refine Protocol.keeps_onError (E := fun _ s => ∃ stage, stage.isBare = true ∧ s = .rest stage) ?_ ?_
      · refine Protocol.keeps_bind (socketCall_keeps .connected o.connectSocket rfl
          fun _ => ⟨.connected, rfl, rfl⟩) fun _ => ?_
        refine Protocol.keeps_bind (socketCall_keeps .nonblocking o.setNonblocking rfl
          fun _ => ⟨.nonblocking, rfl, rfl⟩) fun _ => ?_
        refine Protocol.keeps_bind (keeps_reject fun _ => ⟨.nonblocking, rfl, rfl⟩) fun _ => ?_
        refine Protocol.keeps_bind (keeps_step (.rest .created) rfl) fun _ => ?_
        refine Protocol.keeps_onError (prepare_keeps hname o) ?_
        rintro _ _ ⟨stage, hstage, rfl⟩
        refine ⟨.rest .freed, ?_, .freed, rfl, rfl⟩
        simp only [sslProtocol, Protocol.run, sslStep, SslState.rest, hstage, if_true, Option.bind_some]
      · rintro _ _ ⟨stage, hstage, rfl⟩
        exact ⟨_, hbare stage hstage, .inl rfl⟩

omit hname

theorem verify_keeps (ssl : Ssl) (r : OpenSslSession.Round) :
    (sslProtocol name).Keeps (· = .rest .complete) (OpenSslSession.verify ssl r)
      (fun _ s => s = .rest .ready) (fun _ s => Settled s) := by
  refine Protocol.keeps_bind (keeps_step (.rest (if ssl.verifyError = none then .verified else .broken))
    (by simp only [sslStep, if_true])) fun _ => ?_
  refine Protocol.keeps_bind (R := fun _ s => s = .rest .verified) ?_ fun _ => ?_
  · cases ssl.verifyError with
    | none => exact Protocol.keeps_lift (fun _ _ _ hs => hs) nofun
    | some text => exact Protocol.keeps_lift nofun fun _ _ _ hs => hs ▸ .broken
  · refine Protocol.keeps_bind (keeps_step (.rest (if r.certificate then .certified else .broken))
      (SslState.move_rest ..)) fun _ => ?_
    refine Protocol.keeps_bind (R := fun _ s => s = .rest .certified) ?_ fun _ => ?_
    · cases r.certificate with
      | true => exact Protocol.keeps_lift (fun _ _ _ hs => hs) nofun
      | false => exact Protocol.keeps_lift nofun fun _ _ _ hs => hs ▸ .broken
    · refine Protocol.keeps_bind (keeps_step (.rest (if r.dataMtu = 0 then .broken else .ready))
        (SslState.move_rest ..)) fun _ => ?_
      unfold OpenSslSession.connected
      by_cases hzero : r.dataMtu = 0
      · have hbudget : min r.dataMtu 16384 = 0 := by omega
        rw [if_pos hzero, dif_pos hbudget]
        exact Protocol.keeps_lift nofun fun _ _ _ hs => hs ▸ .broken
      · have hbudget : min r.dataMtu 16384 ≠ 0 := by omega
        rw [if_neg hzero, dif_neg hbudget]
        exact Protocol.keeps_lift (fun _ _ _ hs => hs) nofun

/-- Where a round leaves the SSL object. -/
def roundStage : Option OpenSslSession → Stage
  | none => .handshaking
  | some _ => .ready

theorem round_keeps (name : String) (cancelled : Bool) (until_ now : Instant) (ssl : Ssl)
    (r : OpenSslSession.Round) :
    (sslProtocol name).Keeps (· = .rest .handshaking) (OpenSslSession.round cancelled until_ now ssl r)
      (fun session s => s = .rest (roundStage session)) (fun _ s => s = .rest .released) := by
  refine Protocol.keeps_onError (E := fun _ s => Settled s) ?_ ?_
  · refine Protocol.keeps_bind (keeps_reject fun _ => ⟨.handshaking, rfl, rfl⟩) fun _ => ?_
    refine Protocol.keeps_bind (clearError_keeps rfl) fun _ => ?_
    refine Protocol.keeps_bind (keeps_step (if r.connect = 1 then .rest .complete
      else ⟨.handshaking, false, some r.connect⟩) (by simp only [sslStep, if_true])) fun _ => ?_
    by_cases hcomplete : r.connect = 1
    · simp only [if_pos hcomplete]
      exact Protocol.keeps_bind (verify_keeps ssl r) fun _ => Protocol.keeps_ok fun _ hs => hs
    · simp only [if_neg hcomplete]
      refine Protocol.keeps_bind (keeps_settled (checkResult_keeps ssl r.connect .handshaking)) fun _ => ?_
      refine Protocol.keeps_bind (keeps_settled (handleTimeout_keeps ssl rfl)) fun _ => ?_
      exact Protocol.keeps_bind (keeps_reject fun _ => ⟨.handshaking, rfl, rfl⟩) fun _ =>
        Protocol.keeps_ok fun _ hs => hs
  · rintro _ _ ⟨stage, hstage, rfl⟩
    exact ⟨_, dropSession_run hstage, rfl⟩

end Connect

/-! ### What a session has behind it -/

/-- How much an association has been through: its identity set, its handshake complete, the result of the
verification, the certificate seen. -/
def Stage.level : Stage → Nat
  | .named | .client | .sized | .handshaking => 1
  | .complete => 2
  | .verified => 3
  | .certified | .ready | .retry _ => 4
  | _ => 0

/-- The name the server's certificate is checked for. -/
def ChecksFor (name : String) (calls : List SslCall) : Prop :=
  (∃ ip, parseIpAddr name = some ip ∧ .setIp ip ∈ calls) ∨
    parseIpAddr name = none ∧ .setHost name ∈ calls ∧ .setHostname name ∈ calls

/-- What the calls on an association contain at a stage. -/
structure Earned (name : String) (calls : List SslCall) (stage : Stage) : Prop where
  hosted : stage = .hosted → parseIpAddr name = none ∧ .setHost name ∈ calls
  identity : 1 ≤ stage.level → ChecksFor name calls
  handshake : 2 ≤ stage.level → .connect 1 ∈ calls
  verified : 3 ≤ stage.level → .verifyResult none ∈ calls
  certificate : 4 ≤ stage.level → .peerCertificate true ∈ calls

/-- A call that does not lead further. -/
theorem Earned.keep {calls : List SslCall} {source : Stage} (h : Earned name calls source) (target : Stage) (call : SslCall)
    (hlevel : target.level ≤ source.level) (hhosted : target = .hosted → source = .hosted) :
    Earned name (calls ++ [call]) target where
  hosted heq :=
    have hsource := h.hosted (hhosted heq)
    ⟨hsource.1, List.mem_append_left _ hsource.2⟩
  identity hle := by
    rcases h.identity (hle.trans hlevel) with ⟨ip, hip, hmem⟩ | ⟨hip, hmem, hmem'⟩
    · exact .inl ⟨ip, hip, List.mem_append_left _ hmem⟩
    · exact .inr ⟨hip, List.mem_append_left _ hmem, List.mem_append_left _ hmem'⟩
  handshake hle := List.mem_append_left _ (h.handshake (hle.trans hlevel))
  verified hle := List.mem_append_left _ (h.verified (hle.trans hlevel))
  certificate hle := List.mem_append_left _ (h.certificate (hle.trans hlevel))

theorem SslState.move_eq_some {s s' : SslState} {source target : Stage} :
    s.move source target = some s' ↔ s = .rest source ∧ s' = .rest target := by
  unfold SslState.move
  split <;> simp_all [eq_comm]

/-- A call that leads further by one level is the one that level stands for. -/
theorem Earned.step {calls : List SslCall} {s s' : SslState} {call : SslCall} (h : Earned name calls s.stage)
    (hstep : sslStep name s call = some s') : Earned name (calls ++ [call]) s'.stage := by
  have hlast : call ∈ calls ++ [call] := List.mem_append_right _ (List.mem_singleton_self call)
  cases call with
  | bind | connectSocket | setNonblocking | new | setHostflags | setConnectState | setMtu | setBio | peerInfo =>
      obtain ⟨rfl, rfl⟩ := SslState.move_eq_some.mp hstep
      exact h.keep _ _ (by decide) (by decide)
  | setIp ip =>
      simp only [sslStep] at hstep
      split at hstep
      · rename_i hip
        obtain ⟨rfl, rfl⟩ := SslState.move_eq_some.mp hstep
        exact ⟨nofun, fun _ => .inl ⟨ip, hip, hlast⟩, nofun, nofun, nofun⟩
      · cases hstep
  | setHost host =>
      simp only [sslStep] at hstep
      split at hstep
      · rename_i hhost
        obtain ⟨hip, rfl⟩ := hhost
        obtain ⟨rfl, rfl⟩ := SslState.move_eq_some.mp hstep
        exact ⟨fun _ => ⟨hip, hlast⟩, nofun, nofun, nofun, nofun⟩
      · cases hstep
  | setHostname host =>
      simp only [sslStep] at hstep
      split at hstep
      · rename_i hhost
        subst hhost
        obtain ⟨rfl, rfl⟩ := SslState.move_eq_some.mp hstep
        obtain ⟨hip, hmem⟩ := h.hosted rfl
        exact ⟨nofun, fun _ => .inr ⟨hip, List.mem_append_left _ hmem, hlast⟩, nofun, nofun, nofun⟩
      · cases hstep
  | connect result =>
      simp only [sslStep] at hstep
      split at hstep
      · rename_i hs
        subst hs
        cases hstep
        by_cases hresult : result = 1
        · subst hresult
          have hkept := h.keep .handshaking (.connect 1) (by decide) (by decide)
          exact ⟨nofun, fun _ => hkept.identity (by decide), fun _ => hlast, nofun, nofun⟩
        · rw [if_neg hresult]
          exact h.keep _ _ (Nat.le_refl _) nofun
      · cases hstep
  | verifyResult error =>
      simp only [sslStep] at hstep
      split at hstep
      · rename_i hs
        subst hs
        cases hstep
        cases error with
        | none =>
            have hkept := h.keep .complete (.verifyResult none) (by decide) (by decide)
            exact ⟨nofun, fun _ => hkept.identity (by decide), fun _ => hkept.handshake (by decide), fun _ => hlast,
              nofun⟩
        | some text => exact h.keep .broken _ (Nat.zero_le _) nofun
      · split at hstep
        · rename_i hs
          subst hs
          cases hstep
          exact h.keep _ _ (by decide) (by decide)
        · cases hstep
  | peerCertificate present =>
      obtain ⟨rfl, rfl⟩ := SslState.move_eq_some.mp hstep
      cases present with
      | true =>
          have hkept := h.keep .verified (.peerCertificate true) (by decide) (by decide)
          exact ⟨nofun, fun _ => hkept.identity (by decide), fun _ => hkept.handshake (by decide),
            fun _ => hkept.verified (by decide), fun _ => hlast⟩
      | false => exact h.keep _ _ (by decide) (by decide)
  | dataMtu bytes =>
      obtain ⟨rfl, rfl⟩ := SslState.move_eq_some.mp hstep
      split <;> exact h.keep _ _ (by decide) (by decide)
  | clearError | handleTimeout =>
      simp only [sslStep] at hstep
      split at hstep
      · cases hstep
        first
          | exact h.keep _ _ (Nat.le_refl _) id
          | (split
             · exact h.keep _ _ (Nat.zero_le _) nofun
             · exact h.keep _ _ (Nat.le_refl _) id)
      · cases hstep
  | read length result =>
      simp only [sslStep] at hstep
      split at hstep
      · rename_i hs
        obtain ⟨rfl, -⟩ := hs
        cases hstep
        split <;> exact h.keep _ _ (Nat.le_refl _) nofun
      · cases hstep
  | write bytes length result =>
      simp only [sslStep] at hstep
      split at hstep
      · rename_i hs
        have hlevel : s.stage.level = 4 := by rcases hs.1 with rfl | rfl <;> rfl
        cases hstep
        split
        · exact h.keep _ _ hlevel.ge nofun
        · split
          · exact h.keep _ _ (Nat.zero_le _) nofun
          · exact h.keep _ _ hlevel.ge nofun
      · cases hstep
  | getError result error =>
      simp only [sslStep] at hstep
      split at hstep
      · cases hstep
        show Earned name _ (if error = 2 ∨ error = 3 then s.stage else .broken)
        split
        · exact h.keep _ _ (Nat.le_refl _) id
        · exact h.keep _ _ (Nat.zero_le _) nofun
      · cases hstep
  | shutdown | free | closeSocket =>
      simp only [sslStep] at hstep
      split at hstep
      · cases hstep
        exact h.keep _ _ (Nat.zero_le _) nofun
      · cases hstep

/-- What is behind a session that can be written to. -/
theorem earned {calls : List SslCall} {s : SslState}
    (h : (sslProtocol name).run (.rest .unbound) calls = some s) : Earned name calls s.stage :=
  Protocol.run_induction (P := fun calls s => Earned name calls s.stage) (sslProtocol name)
    (by constructor <;> exact fun h => absurd h (by decide)) (fun _ _ _ _ hearned hstep => hearned.step hstep) h

/-- After the shutdown there is only the release. -/
theorem shutdown_is_final {calls : List SslCall} {s : SslState}
    (h : (sslProtocol name).run (.rest .unbound) calls = some s) (hmem : .shutdown ∈ calls) :
    s = .rest .shut ∨ s = .rest .freed ∨ s = .rest .released := by
  refine Protocol.run_induction (sslProtocol name)
    (P := fun calls s => .shutdown ∈ calls → s = .rest .shut ∨ s = .rest .freed ∨ s = .rest .released)
    nofun (fun calls s call s' hbefore hstep hmem => ?_) h hmem
  rcases List.mem_append.mp hmem with hearlier | hlast
  · have hgone : sslStep name s call = some s' := hstep
    rcases hbefore hearlier with rfl | rfl | rfl <;> cases call <;>
      simp [sslStep, SslState.rest, SslState.move, Stage.isOpen, Stage.isIdle, Stage.isBare] at hgone <;>
      subst hgone <;> simp [SslState.rest]
  · obtain rfl := List.mem_singleton.mp hlast
    have hgone : sslStep name s .shutdown = some s' := hstep
    simp only [sslStep] at hgone
    split at hgone
    · exact .inl (Option.some.inj hgone).symm
    · cases hgone

end SyslogDtlsAgent
