import SyslogDtlsAgent.Proof.Relay.Moves

/-!
# Lookups and the addresses dialled

What the sender does with its DNS workers and the addresses they find, read off its steps as signals. One
worker is waited for at a time, also across calls of `resolve` that gave up on it, and the counter that picks
an address counts the calls of `connect`.
-/

namespace SyslogDtlsAgent

open Library

variable {lib : External} {cfg : Config} {boot : Boot}

inductive Signal where
  | started (worker : Nat)
  /-- The result of a worker was received. -/
  | taken (worker : Nat) (result : Except String (List SocketAddr))
  /-- The channel of a worker was found closed: it has ended without a result. -/
  | lost (worker : Nat)
  | dialled (remote : SocketAddr)

/-- The signal an event stands for, given what the lookup channel returned in that step. -/
def Event.signal (recv : LookupRecv) : Event → Option Signal
  | .lookupStarted worker => some (.started worker)
  | .lookupTaken worker =>
      match recv with
      | .result result => some (.taken worker result)
      | _ => none
  | .connect remote => some (.dialled remote)
  | _ => none

/-- The worker found to have ended, which is no event. -/
def Sender.losing (t : Sender) (recv : LookupRecv) : Option Signal :=
  match t.pc, t.dns, recv with
  | .awaitRecv _, some worker, .disconnected => some (.lost worker)
  | _, _, _ => none

def World.signals (lib : External) (cfg : Config) (w : World) : Action → List Signal
  | .sender i =>
      (senderStep lib cfg i w.shared w.sender).events.filterMap (Event.signal i.recv) ++
        (w.sender.losing i.recv).toList
  | _ => []

/-- The relay as the signals of its sender. -/
def lookups (lib : External) (cfg : Config) (boot : Boot) : Machine World Action Signal :=
  { relay lib cfg boot with emit := World.signals lib cfg }

/-! ### What signals say -/

def Signal.worker : Signal → Option Nat
  | .started worker => some worker
  | _ => none

/-- The worker a signal is done with. -/
def Signal.settled : Signal → Option Nat
  | .taken worker _ => some worker
  | .lost worker => some worker
  | _ => none

/-- The worker whose result a signal consumes. -/
def Signal.consumed : Signal → Option Nat
  | .taken worker _ => some worker
  | _ => none

/-- A worker was started, and its result has neither been received nor found missing. -/
def Outstanding (signals : List Signal) (worker : Nat) : Prop :=
  worker ∈ signals.filterMap Signal.worker ∧ worker ∉ signals.filterMap Signal.settled

/-- The address list a lookup returned last. -/
def answerAfter (answer : List SocketAddr) : Signal → List SocketAddr
  | .taken _ (.ok addresses) => addresses
  | _ => answer

def lastAnswer (signals : List Signal) : List SocketAddr := signals.foldl answerAfter []

/-- The addresses connected to, each with the list a lookup had returned last. -/
def dialsFrom (answer : List SocketAddr) : List Signal → List (List SocketAddr × SocketAddr)
  | [] => []
  | .dialled remote :: rest => (answer, remote) :: dialsFrom answer rest
  | signal :: rest => dialsFrom (answerAfter answer signal) rest

def dials (signals : List Signal) : List (List SocketAddr × SocketAddr) := dialsFrom [] signals

theorem dialsFrom_append (answer : List SocketAddr) (signals more : List Signal) :
    dialsFrom answer (signals ++ more) =
      dialsFrom answer signals ++ dialsFrom (signals.foldl answerAfter answer) more := by
  induction signals generalizing answer with
  | nil => rfl
  | cons signal signals ih =>
      cases signal with
      | dialled remote => simp only [List.cons_append, dialsFrom, ih, List.foldl_cons, answerAfter]
      | started | taken | lost => simp only [List.cons_append, dialsFrom, ih, List.foldl_cons]

theorem dials_append (signals more : List Signal) :
    dials (signals ++ more) = dials signals ++ dialsFrom (lastAnswer signals) more :=
  dialsFrom_append [] signals more

theorem dials_concat {signal : Signal} (h : ∀ remote, signal ≠ .dialled remote) (signals : List Signal) :
    dials (signals ++ [signal]) = dials signals := by
  rw [dials_append]
  cases signal with
  | dialled remote => exact absurd rfl (h remote)
  | started | taken | lost => exact List.append_nil _

theorem lastAnswer_append (signals more : List Signal) :
    lastAnswer (signals ++ more) = more.foldl answerAfter (lastAnswer signals) := by
  rw [lastAnswer, List.foldl_append]
  rfl

/-- An address list that is not empty was returned by a lookup. -/
theorem taken_of_lastAnswer {signals : List Signal} (h : lastAnswer signals ≠ []) :
    ∃ worker, .taken worker (.ok (lastAnswer signals)) ∈ signals := by
  induction signals using List.reverseRecOn with
  | nil => exact absurd rfl h
  | append_singleton signals signal ih =>
      rw [lastAnswer_append] at h ⊢
      simp only [List.foldl_cons, List.foldl_nil] at h ⊢
      have hbefore (hsame : answerAfter (lastAnswer signals) signal = lastAnswer signals) :
          ∃ worker, .taken worker (.ok (answerAfter (lastAnswer signals) signal)) ∈ signals ++ [signal] := by
        rw [hsame] at h ⊢
        obtain ⟨worker, hworker⟩ := ih h
        exact ⟨worker, List.mem_append_left _ hworker⟩
      cases signal with
      | taken worker result =>
          cases result with
          | ok addresses => exact ⟨worker, List.mem_append_right _ (List.mem_singleton_self _)⟩
          | error e => exact hbefore rfl
      | started | lost | dialled => exact hbefore rfl

/-! ### Steps of the sender -/

def Pc.addresses : Pc → Option (List SocketAddr)
  | .dial addresses => some addresses
  | _ => none

def Pc.remote : Pc → Option SocketAddr
  | .connecting remote => some remote
  | _ => none

/-- Nothing that concerns lookups changes. -/
structure Sender.Alike (t t' : Sender) : Prop where
  dns : t'.dns = t.dns
  lookups : t'.lookups = t.lookups
  attempts : t'.attempts = t.attempts

/-- What a step of the sender does about addresses, with its signals. -/
inductive Probe (t t' : Sender) : List Signal → Prop where
  | aside (halike : t.Alike t') (hfrom : t.pc.remote = none) (hto : t'.pc.addresses = none ∧ t'.pc.remote = none) :
      Probe t t' []
  | starts (hdns : t.dns = none) (hdns' : t'.dns = some t.lookups) (hlookups : t'.lookups = t.lookups + 1)
      (hattempts : t'.attempts = t.attempts) (hfrom : t.pc.remote = none)
      (hto : t'.pc.addresses = none ∧ t'.pc.remote = none) :
      Probe t t' [.started t.lookups]
  | settles {signal : Signal} (worker : Nat) (hdns : t.dns = some worker) (hdns' : t'.dns = none)
      (hlookups : t'.lookups = t.lookups) (hattempts : t'.attempts = t.attempts)
      (hsignal : signal.settled = some worker) (hfrom : t.pc.remote = none) (hto : t'.pc.remote = none)
      (haddresses : ∀ addresses, t'.pc.addresses = some addresses →
        addresses ≠ [] ∧ signal = .taken worker (.ok addresses)) :
      Probe t t' [signal]
  | aims (addresses : List SocketAddr) (remote : SocketAddr) (hfrom : t.pc = .dial addresses)
      (hremote : addresses[t.attempts % addresses.length]? = some remote) (hto : t'.pc = .connecting remote)
      (hdns : t'.dns = t.dns) (hlookups : t'.lookups = t.lookups)
      (hattempts : t'.attempts = (t.attempts + 1) % usizeRange) :
      Probe t t' []
  | dials (remote : SocketAddr) (halike : t.Alike t') (hfrom : t.pc = .connecting remote)
      (hto : t'.pc.addresses = none ∧ t'.pc.remote = none) :
      Probe t t' [.dialled remote]

theorem Sender.losing_eq_none {t : Sender} (h : ¬∃ until_, t.pc = .awaitRecv until_) (recv : LookupRecv) :
    t.losing recv = none := by
  unfold Sender.losing
  split
  · rename_i until_ worker hpc hdns
    exact absurd ⟨until_, hpc⟩ h
  · rfl

/-- While a result is waited for, a step keeps the worker or is done with it. -/
theorem await_probe (i : SenderInput) (s : State) (t : Sender) {until_ : Instant} (hpc : t.pc = .awaitRecv until_) :
    Probe t (senderStep lib cfg i s t).sender
      ((senderStep lib cfg i s t).events.filterMap (Event.signal i.recv) ++ (t.losing i.recv).toList) := by
  have hfrom : t.pc.remote = none := by rw [hpc]; rfl
  have hnone {pc : Pc} (hpc : pc.addresses = none) {signal : Signal} {worker : Nat} :
      ∀ addresses, pc.addresses = some addresses → addresses ≠ [] ∧ signal = .taken worker (.ok addresses) := by
    intro addresses h
    rw [hpc] at h
    cases h
  cases hdns : t.dns with
  | none =>
      simp only [senderStep, Sender.losing, hpc, hdns]
      exact .aside ⟨hdns.symm, rfl, rfl⟩ hfrom ⟨rfl, rfl⟩
  | some worker =>
      cases hrecv : i.recv with
      | result result =>
          cases result with
          | ok addresses =>
              cases addresses with
              | nil =>
                  simp only [senderStep, Sender.losing, hpc, hdns, hrecv]
                  exact .settles worker hdns rfl rfl rfl rfl hfrom rfl (hnone rfl)
              | cons first rest =>
                  simp only [senderStep, Sender.losing, hpc, hdns, hrecv]
                  refine .settles worker hdns rfl rfl rfl rfl hfrom rfl fun addresses h => ?_
                  cases h
                  exact ⟨List.cons_ne_nil _ _, rfl⟩
          | error e =>
              simp only [senderStep, Sender.losing, hpc, hdns, hrecv]
              exact .settles worker hdns rfl rfl rfl rfl hfrom rfl (hnone rfl)
      | timeout =>
          simp only [senderStep, Sender.losing, hpc, hdns, hrecv]
          split
          · exact .aside ⟨hdns.symm, rfl, rfl⟩ hfrom ⟨rfl, rfl⟩
          · exact .aside ⟨hdns.symm, rfl, rfl⟩ hfrom ⟨rfl, rfl⟩
      | disconnected =>
          simp only [senderStep, Sender.losing, hpc, hdns, hrecv]
          exact .settles worker hdns rfl rfl rfl rfl hfrom rfl (hnone rfl)

theorem sender_probe (i : SenderInput) (s : State) (t : Sender) :
    Probe t (senderStep lib cfg i s t).sender
      ((senderStep lib cfg i s t).events.filterMap (Event.signal i.recv) ++ (t.losing i.recv).toList) := by
  by_cases hawait : ∃ until_, t.pc = .awaitRecv until_
  · obtain ⟨until_, hpc⟩ := hawait
    exact await_probe i s t hpc
  rw [Sender.losing_eq_none hawait]
  cases hpc : t.pc with
  | awaitRecv until_ => exact absurd ⟨until_, hpc⟩ hawait
  | lookup =>
      have hfrom : t.pc.remote = none := by rw [hpc]; rfl
      simp only [senderStep, hpc]
      split
      · exact .aside ⟨rfl, rfl, rfl⟩ hfrom ⟨rfl, rfl⟩
      · rename_i hdns
        have hdns : t.dns = none := by simpa using hdns
        split
        · exact .aside ⟨rfl, rfl, rfl⟩ hfrom ⟨rfl, rfl⟩
        · exact .aside ⟨rfl, rfl, rfl⟩ hfrom ⟨rfl, rfl⟩
        · exact .starts hdns rfl rfl rfl hfrom ⟨rfl, rfl⟩
  | dial addresses =>
      simp only [senderStep, hpc]
      split
      · exact .aside ⟨rfl, rfl, rfl⟩ (by rw [hpc]; rfl) ⟨rfl, rfl⟩
      · rename_i remote hremote
        exact .aims addresses remote hpc hremote rfl rfl rfl rfl
  | connecting remote =>
      simp only [senderStep, hpc]
      split
      · exact .dials remote ⟨rfl, rfl, rfl⟩ hpc ⟨rfl, rfl⟩
      · exact .dials remote ⟨rfl, rfl, rfl⟩ hpc ⟨rfl, rfl⟩
  | sent =>
      simp only [senderStep, hpc]
      cases s.queue with
      | nil => exact .aside ⟨rfl, rfl, rfl⟩ (by rw [hpc]; rfl) ⟨rfl, rfl⟩
      | cons m rest => exact .aside ⟨rfl, rfl, rfl⟩ (by rw [hpc]; rfl) ⟨rfl, rfl⟩
  | closing =>
      simp only [senderStep, hpc]
      cases t.session with
      | none => exact .aside ⟨rfl, rfl, rfl⟩ (by rw [hpc]; rfl) ⟨rfl, rfl⟩
      | some session => exact .aside ⟨rfl, rfl, rfl⟩ (by rw [hpc]; rfl) ⟨rfl, rfl⟩
  | drain =>
      have hquiet : (s.queue.map fun m => Event.finished m .shutdown).filterMap (Event.signal i.recv) = [] := by
        induction s.queue with
        | nil => rfl
        | cons m rest ih => exact ih
      simp only [senderStep, hpc]
      rw [hquiet]
      exact .aside ⟨rfl, rfl, rfl⟩ (by rw [hpc]; rfl) ⟨rfl, rfl⟩
  | _ =>
      have hfrom : t.pc.remote = none := by rw [hpc]; rfl
      simp only [senderStep, hpc]
      repeat' split
      all_goals exact .aside ⟨rfl, rfl, rfl⟩ hfrom ⟨rfl, rfl⟩

/-! ### The invariant -/

/-- The locals of the sender that concern lookups, against the signals so far. -/
structure Looked (t : Sender) (signals : List Signal) : Prop where
  started : signals.filterMap Signal.worker = List.range t.lookups
  settled : signals.filterMap Signal.settled ++ t.dns.toList = List.range t.lookups
  addresses : ∀ addresses, t.pc.addresses = some addresses → lastAnswer signals = addresses ∧ addresses ≠ []
  remote : ∀ remote, t.pc.remote = some remote →
    (lastAnswer signals)[(dials signals).length % usizeRange % (lastAnswer signals).length]? = some remote
  attempts : t.attempts = ((dials signals).length + t.pc.remote.toList.length) % usizeRange
  picked : ∀ j answer remote, (dials signals)[j]? = some (answer, remote) →
    answer[j % usizeRange % answer.length]? = some remote

theorem Looked.start : Looked (Sender.start cfg boot) [] where
  started := rfl
  settled := rfl
  addresses _ h := by cases h
  remote _ h := by cases h
  attempts := rfl
  picked _ _ _ h := by cases h

theorem Looked.probe {t t' : Sender} {signals fresh : List Signal} (h : Looked t signals)
    (hprobe : Probe t t' fresh) : Looked t' (signals ++ fresh) := by
  cases hprobe with
  | aside halike hfrom hto =>
      rw [List.append_nil]
      refine ⟨halike.lookups ▸ h.started, ?_, by simp [hto.1], by simp [hto.2], ?_, h.picked⟩
      · rw [halike.dns, halike.lookups]
        exact h.settled
      · rw [halike.attempts, h.attempts, hfrom, hto.2]
  | starts hdns hdns' hlookups hattempts hfrom hto =>
      have hdials : dials (signals ++ [.started t.lookups]) = dials signals := by
        apply dials_concat
        intro remote h
        cases h
      have hsettled := h.settled
      rw [hdns] at hsettled
      refine ⟨?_, ?_, by simp [hto.1], by simp [hto.2], ?_, ?_⟩
      · rw [List.filterMap_append, h.started, hlookups, List.range_succ]
        rfl
      · rw [List.filterMap_append, hdns', hlookups, List.range_succ, ← hsettled]
        simp [Signal.settled]
      · rw [hattempts, h.attempts, hfrom, hto.2, hdials]
      · rw [hdials]
        exact h.picked
  | @settles signal worker hdns hdns' hlookups hattempts hsignal hfrom hto haddresses =>
      have hworker : signal.worker = none := by
        cases signal with
        | started | dialled => cases hsignal
        | taken | lost => rfl
      have hdials : dials (signals ++ [signal]) = dials signals := by
        apply dials_concat
        intro remote h
        rw [h] at hsignal
        cases hsignal
      have hsettled := h.settled
      rw [hdns] at hsettled
      refine ⟨?_, ?_, fun addresses hpc => ?_, by simp [hto], ?_, ?_⟩
      · rw [List.filterMap_append, h.started, hlookups]
        simp [hworker]
      · rw [List.filterMap_append, hdns', hlookups, ← hsettled]
        simp [hsignal]
      · obtain ⟨hne, rfl⟩ := haddresses addresses hpc
        exact ⟨lastAnswer_append signals _, hne⟩
      · rw [hattempts, h.attempts, hfrom, hto, hdials]
      · rw [hdials]
        exact h.picked
  | aims addresses remote hfrom hremote hto hdns hlookups hattempts =>
      have hlast : lastAnswer signals = addresses := (h.addresses addresses (by rw [hfrom]; rfl)).1
      have hbefore : t.attempts = (dials signals).length % usizeRange := by
        rw [h.attempts, hfrom]
        rfl
      rw [List.append_nil]
      refine ⟨hlookups ▸ h.started, ?_, ?_, fun remote' hpc => ?_, ?_, h.picked⟩
      · rw [hdns, hlookups]
        exact h.settled
      · rw [hto]
        exact fun _ hpc => absurd hpc (by simp [Pc.addresses])
      · rw [hto] at hpc
        cases hpc
        rw [hlast, ← hbefore]
        exact hremote
      · rw [hattempts, hbefore, hto, Nat.mod_add_mod]
        rfl
  | dials remote halike hfrom hto =>
      have hdials : dials (signals ++ [.dialled remote]) = dials signals ++ [(lastAnswer signals, remote)] :=
        dials_append signals _
      have hremote := h.remote remote (by rw [hfrom]; rfl)
      refine ⟨?_, ?_, by simp [hto.1], by simp [hto.2], ?_, fun j answer remote' hj => ?_⟩
      · rw [List.filterMap_append, h.started, halike.lookups]
        exact List.append_nil _
      · rw [List.filterMap_append, halike.dns, halike.lookups, ← h.settled]
        simp [Signal.settled]
      · rw [halike.attempts, h.attempts, hfrom, hto.2, hdials, List.length_append]
        rfl
      · rw [hdials] at hj
        rcases Nat.lt_or_ge j (dials signals).length with hlt | hge
        · rw [List.getElem?_append_left hlt] at hj
          exact h.picked j answer remote' hj
        · rw [List.getElem?_append_right hge] at hj
          have hlast : j = (dials signals).length := by
            have := (List.getElem?_eq_some_iff.mp hj).1
            simp at this
            omega
          rw [hlast, Nat.sub_self, List.getElem?_cons_zero] at hj
          cases hj
          rw [hlast]
          exact hremote

theorem looked (actions : List Action) :
    Looked ((lookups lib cfg boot).run actions).sender ((lookups lib cfg boot).trace actions) := by
  have hquiet : ∀ w action, (∀ i, action ≠ .sender i) → World.signals lib cfg w action = [] := by
    intro w action hother
    cases action with
    | sender i => exact absurd rfl (hother i)
    | listener | stop | join => rfl
  apply sender_induction (World.signals lib cfg) hquiet Looked.start
  intro w i so_far h
  exact h.probe (sender_probe i w.shared w.sender)

/-! ### What the invariant says of a run -/

theorem consumed_sublist (signals : List Signal) :
    (signals.filterMap Signal.consumed).Sublist (signals.filterMap Signal.settled) := by
  induction signals with
  | nil => exact .slnil
  | cons signal signals ih =>
      cases signal with
      | taken worker result => exact ih.cons_cons worker
      | lost worker => exact ih.cons worker
      | started | dialled => exact ih

/-- The workers done with and the one waited for, in the order they were started. -/
theorem Looked.nodup {t : Sender} {signals : List Signal} (h : Looked t signals) :
    (signals.filterMap Signal.settled ++ t.dns.toList).Nodup := by
  rw [h.settled]
  exact List.nodup_range

theorem Looked.waited_for {t : Sender} {signals : List Signal} (h : Looked t signals) {worker : Nat}
    (hworker : Outstanding signals worker) : t.dns = some worker := by
  have hmem : worker ∈ signals.filterMap Signal.settled ++ t.dns.toList := by
    rw [h.settled, ← h.started]
    exact hworker.1
  exact Option.mem_toList.mp ((List.mem_append.mp hmem).resolve_left hworker.2)

/-- A connection is made to a member of the last answer before it. -/
theorem Looked.dialled {t : Sender} {earlier later : List Signal} {remote : SocketAddr}
    (h : Looked t (earlier ++ .dialled remote :: later)) :
    remote ∈ lastAnswer earlier := by
  have hdial : (dials (earlier ++ .dialled remote :: later))[(dials earlier).length]? =
      some (lastAnswer earlier, remote) := by
    rw [dials_append, List.getElem?_append_right (Nat.le_refl _), Nat.sub_self]
    rfl
  exact List.mem_of_getElem? (h.picked _ _ _ hdial)

/-- Connections made with one list, while the counter does not wrap, take its addresses in turn. -/
theorem Looked.rotates {t : Sender} {signals : List Signal} (h : Looked t signals)
    {before window after : List (List SocketAddr × SocketAddr)} {addresses : List SocketAddr}
    (hdials : dials signals = before ++ window ++ after) (hsame : ∀ dial ∈ window, dial.1 = addresses)
    (hlength : window.length = addresses.length)
    (hwrap : before.length % usizeRange + window.length ≤ usizeRange) :
    window.map Prod.snd = addresses.rotate (before.length % usizeRange) := by
  apply List.ext_getElem?
  intro k
  rcases Nat.lt_or_ge k window.length with hk | hk
  · have hwindow : window[k]? = some window[k] := List.getElem?_eq_getElem hk
    have hdial : (dials signals)[before.length + k]? = some (addresses, window[k].2) := by
      rw [hdials, List.append_assoc, List.getElem?_append_right (Nat.le_add_right _ _), Nat.add_sub_cancel_left,
        List.getElem?_append_left hk, hwindow, ← hsame window[k] (List.getElem_mem hk)]
    have hturn : (before.length + k) % usizeRange = k + before.length % usizeRange := by
      rw [← Nat.mod_add_mod, Nat.mod_eq_of_lt (by omega), Nat.add_comm]
    have hpicked := h.picked _ _ _ hdial
    rw [hturn] at hpicked
    rw [List.getElem?_map, hwindow, List.getElem?_rotate (hlength ▸ hk), hpicked]
    rfl
  · rw [List.getElem?_eq_none (by simpa using hk), List.getElem?_eq_none (by simpa [← hlength] using hk)]

/-- In every run: one lookup worker at most is waited for, no result is consumed twice, only addresses
that a lookup returned are connected to, and addresses that stay the same are tried in turn. -/
theorem lookups_are_bounded (actions : List Action) :
    let t := ((lookups lib cfg boot).run actions).sender
    let signals := (lookups lib cfg boot).trace actions
    (∀ worker worker', Outstanding signals worker → Outstanding signals worker' → worker = worker') ∧
      (signals.filterMap Signal.worker).Nodup ∧
      (signals.filterMap Signal.consumed).Nodup ∧
      (∀ worker ∈ signals.filterMap Signal.consumed, worker ∈ signals.filterMap Signal.worker) ∧
      (∀ earlier remote later, signals = earlier ++ .dialled remote :: later →
        ∃ worker addresses, .taken worker (.ok addresses) ∈ earlier ∧ addresses ≠ [] ∧ remote ∈ addresses) ∧
      (∀ addresses, t.pc = .dial addresses →
        addresses ≠ [] ∧ t.attempts % addresses.length < addresses.length) ∧
      ∀ before window after addresses, dials signals = before ++ window ++ after →
        (∀ dial ∈ window, dial.1 = addresses) → window.length = addresses.length →
        before.length % usizeRange + window.length ≤ usizeRange →
        (window.map Prod.snd).Perm addresses := by
  have h := @looked lib cfg boot actions
  intro t signals
  have hnodup : (signals.filterMap Signal.settled).Nodup := h.nodup.of_append_left
  refine ⟨fun worker worker' hworker hworker' => ?_, ?_, ?_, fun worker hworker => ?_, ?_, ?_, ?_⟩
  · have hdns := h.waited_for hworker
    rw [h.waited_for hworker'] at hdns
    exact (Option.some.inj hdns).symm
  · have hstarted : signals.filterMap Signal.worker = List.range t.lookups := h.started
    rw [hstarted]
    exact List.nodup_range
  · exact hnodup.sublist (consumed_sublist signals)
  · have hsettled : worker ∈ signals.filterMap Signal.settled := (consumed_sublist signals).subset hworker
    have hmem : worker ∈ signals.filterMap Signal.settled ++ t.dns.toList := List.mem_append_left _ hsettled
    have hrange : signals.filterMap Signal.settled ++ t.dns.toList = signals.filterMap Signal.worker :=
      h.settled.trans h.started.symm
    exact hrange ▸ hmem
  · intro earlier remote later hsignals
    have hrun : Looked t signals := h
    rw [hsignals] at hrun
    have hremote : remote ∈ lastAnswer earlier := hrun.dialled
    have hne : lastAnswer earlier ≠ [] := List.ne_nil_of_mem hremote
    obtain ⟨worker, htaken⟩ := taken_of_lastAnswer hne
    exact ⟨worker, lastAnswer earlier, htaken, hne, hremote⟩
  · intro addresses hpc
    have hpc' : t.pc.addresses = some addresses := by rw [hpc]; rfl
    have hne : addresses ≠ [] := (h.addresses addresses hpc').2
    exact ⟨hne, Nat.mod_lt _ (List.length_pos_iff.mpr hne)⟩
  · intro before window after addresses hdials hsame hlength hwrap
    rw [h.rotates hdials hsame hlength hwrap]
    exact List.rotate_perm _ _

end SyslogDtlsAgent
