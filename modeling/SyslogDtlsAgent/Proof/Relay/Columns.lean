import SyslogDtlsAgent.Proof.Relay.Fifo
import SyslogDtlsAgent.Proof.Relay.Shutdown
import SyslogDtlsAgent.Proof.Relay.SourceLedger
import SyslogDtlsAgent.Proof.Sources.Windows

/-!
# What the columns of the traffic table count

A row of a snapshot is a record that two threads have changed at different times, and a row exists for some
addresses only. Over a whole run its numbers are nevertheless plain counts: of the datagrams received from
its address, of those dropped on arrival or from the queue, and of those forwarded, in all and within the
last second, minute and day. An address gets its row with its first datagram or never, so no count starts
late.
-/

namespace SyslogDtlsAgent

open Library

variable {lib : External} {cfg : Config} {boot : Boot}

/-! ### What is counted -/

def Event.isArrivalFrom (ip : IpAddr) : Event → Bool
  | .received from_ _ => from_ = ip
  | _ => false

/-- A datagram or a queued message of this address was lost. -/
def Event.isLossFrom (ip : IpAddr) : Event → Bool
  | .refused from_ _ => from_ = ip
  | .finished m .oversized => m.source = ip
  | .finished m .shutdown => m.source = ip
  | _ => false

/-- The message that the step counts as forwarded, with the second in which it does. -/
def World.forwarding (w : World) : Action → List Credit
  | .sender i =>
      if w.sender.pc = .sent then
        (w.shared.queue.head?.map fun m => Credit.mk m.source (w.shared.elapsedSecs i.now)).toList
      else []
  | _ => []

/-- The relay, heard by what it counts as forwarded. -/
def forwarding (lib : External) (cfg : Config) (boot : Boot) : Machine World Action Credit where
  init := World.start cfg boot
  next := World.next lib cfg
  emit := World.forwarding

theorem forwarding_run (actions : List Action) :
    (forwarding lib cfg boot).run actions = (relay lib cfg boot).run actions :=
  (relay lib cfg boot).runFrom_congr (N := forwarding lib cfg boot) rfl (World.start cfg boot) actions

theorem creditSeconds_length (ip : IpAddr) (credits : List Credit) :
    (creditSeconds ip credits).length = (credits.map Credit.ip).count ip := by
  rw [creditSeconds, List.length_map, ← List.countP_eq_length_filter, List.count, List.countP_map]
  rfl

/-- The arrivals from an address are its sightings. -/
theorem countP_isArrivalFrom (ip : IpAddr) (events : List Event) :
    events.countP (Event.isArrivalFrom ip) = (sightings events).count ip := by
  rw [sightings, List.count, List.countP_filterMap]
  refine List.countP_congr fun e _ => ?_
  cases e <;> simp [Event.isArrivalFrom, Event.sighting]

/-! ### Rows -/

/-- The row of `ip` counts the events and the credits of `ip`. -/
structure RowCounts (events : List Event) (credits : List Credit) (ip : IpAddr) (source : Source) : Prop where
  received : source.status.messagesReceived = events.countP (Event.isArrivalFrom ip)
  dropped : source.status.messagesDropped = events.countP (Event.isLossFrom ip)
  represents : source.Represents ip (creditSeconds ip credits)

/-- Nothing of what happened counts for `ip`. -/
structure Uncounted (events : List Event) (credits : List Credit) (ip : IpAddr) : Prop where
  received : events.countP (Event.isArrivalFrom ip) = 0
  dropped : events.countP (Event.isLossFrom ip) = 0
  forwarded : creditSeconds ip credits = []

/-- Every row counts, and nothing was counted of an address that was not seen yet. -/
structure Columns (sources : Sources) (events : List Event) (credits : List Credit) : Prop where
  row : ∀ ip source, sources.entries.lookup ip = some source → RowCounts events credits ip source
  fresh : ∀ ip, ip ∉ sightings events → Uncounted events credits ip

theorem Columns.empty : Columns Sources.empty [] [] := by
  refine ⟨fun ip source hsource => ?_, fun ip hip => ⟨rfl, rfl, rfl⟩⟩
  simp [Sources.empty] at hsource

section

variable {before events : List Event} {credits more : List Credit} {ip : IpAddr} {source : Source}

theorem RowCounts.append (h : RowCounts before credits ip source) (hnone : Uncounted events more ip) :
    RowCounts (before ++ events) (credits ++ more) ip source where
  received := by rw [List.countP_append, hnone.received, Nat.add_zero, h.received]
  dropped := by rw [List.countP_append, hnone.dropped, Nat.add_zero, h.dropped]
  represents := by
    rw [creditSeconds_append, hnone.forwarded, List.append_nil]
    exact h.represents

theorem Uncounted.append (h : Uncounted before credits ip) (hnone : Uncounted events more ip) :
    Uncounted (before ++ events) (credits ++ more) ip where
  received := by rw [List.countP_append, hnone.received, h.received]
  dropped := by rw [List.countP_append, hnone.dropped, h.dropped]
  forwarded := by rw [creditSeconds_append, hnone.forwarded, h.forwarded, List.append_nil]

theorem Uncounted.of_internal (h : ∀ e ∈ events, e.isInternal = true) (ip : IpAddr) : Uncounted events [] ip := by
  have hnone : ∀ e ∈ events, e.isArrivalFrom ip = false ∧ e.isLossFrom ip = false := by
    intro e he
    have hinternal := h e he
    cases e <;> first | exact ⟨rfl, rfl⟩ | cases hinternal
  refine ⟨?_, ?_, rfl⟩
  · exact List.countP_eq_zero.mpr fun e he => Bool.not_eq_true _ ▸ (hnone e he).1
  · exact List.countP_eq_zero.mpr fun e he => Bool.not_eq_true _ ▸ (hnone e he).2

variable {sources : Sources} (h : Columns sources before credits)

include h

/-- Something happened to `ip`, if anything, and its row has changed accordingly, if it has one. -/
theorem Columns.modify {change : Source → Source} (hseen : ip ∈ sightings before)
    (hothers : ∀ other, other ≠ ip → Uncounted events more other)
    (hrow : ∀ source, RowCounts before credits ip source →
      RowCounts (before ++ events) (credits ++ more) ip (change source)) :
    Columns { sources with entries := sources.entries.modify ip change } (before ++ events) (credits ++ more) := by
  refine ⟨fun other source hsource => ?_, fun other hother => ?_⟩
  · rw [AList.lookup_modify] at hsource
    split at hsource
    · rename_i hsame
      obtain ⟨old, hentry, rfl⟩ := Option.map_eq_some_iff.mp hsource
      rw [hsame]
      exact hrow old (h.row ip old hentry)
    · rename_i hother
      exact (h.row other source hsource).append (hothers other hother)
  · rw [sightings_append, List.mem_append, not_or] at hother
    have hne : other ≠ ip := fun hsame => hother.1 (hsame ▸ hseen)
    exact (h.fresh other hother.1).append (hothers other hne)

theorem Columns.aside (hnone : ∀ ip, Uncounted events [] ip) : Columns sources (before ++ events) credits := by
  have hcredits : credits ++ [] = credits := List.append_nil credits
  refine ⟨fun ip source hsource => ?_, fun ip hip => ?_⟩
  · exact hcredits ▸ (h.row ip source hsource).append (hnone ip)
  · rw [sightings_append, List.mem_append, not_or] at hip
    exact hcredits ▸ (h.fresh ip hip.1).append (hnone ip)

/-- A message of this address is lost. -/
theorem Columns.dropped {e : Event} (hseen : ip ∈ sightings before) (hloss : ∀ from_, e.isLossFrom from_ = (ip = from_))
    (harrival : ∀ from_, e.isArrivalFrom from_ = false) :
    Columns (sources.dropped ip) (before ++ [e]) credits := by
  have hmodified : Columns (sources.dropped ip) (before ++ [e]) (credits ++ []) := by
    refine h.modify hseen (fun other hother => ⟨?_, ?_, rfl⟩) (fun source hrow => ⟨?_, ?_, ?_⟩)
    · simp [harrival]
    · simp [hloss, hother.symm]
    · rw [List.countP_append]
      simp [harrival, Source.countDropped, hrow.received]
    · rw [List.countP_append]
      simp [hloss, Source.countDropped, hrow.dropped]
    · have hrepresents := hrow.represents
      rw [List.append_nil]
      exact ⟨hrepresents.address, hrepresents.forwarded, hrepresents.bySecond, hrepresents.byMinute⟩
  rwa [List.append_nil] at hmodified

/-- A message of this address is forwarded. -/
theorem Columns.forwarded {m : Message} {second : Nat} (hseen : m.source ∈ sightings before)
    (hnewest : ∀ c ∈ credits, c.second ≤ second) :
    Columns (sources.forwarded m.source second) (before ++ [.finished m .forwarded])
      (credits ++ [⟨m.source, second⟩]) := by
  refine h.modify hseen (fun other hother => ⟨rfl, rfl, ?_⟩) (fun source hrow => ⟨?_, ?_, ?_⟩)
  · rw [creditSeconds_singleton, if_neg hother.symm]
  · rw [List.countP_append]
    exact hrow.received
  · rw [List.countP_append]
    exact hrow.dropped
  · rw [creditSeconds_append, creditSeconds_singleton, if_pos rfl]
    refine hrow.represents.countForwarded fun old hold => ?_
    obtain ⟨c, hc, rfl⟩ := List.mem_map.mp hold
    exact hnewest c (List.mem_of_mem_filter hc)

/-- A datagram arrives: where its address has no row yet, nothing of it was counted before. -/
theorem Columns.received {outstanding : List IpAddr} (hbooks : SourceBooks cfg outstanding (sightings before) sources)
    (ip : IpAddr) (allowed : Bool) (wallMs : Nat) :
    Columns (sources.received ip allowed wallMs) (before ++ [.received ip allowed]) credits := by
  have hcredits : credits ++ [] = credits := List.append_nil credits
  have hothers : ∀ other, other ≠ ip → Uncounted [.received ip allowed] [] other := by
    intro other hother
    refine ⟨?_, rfl, rfl⟩
    simp [Event.isArrivalFrom, hother.symm]
  have hfresh : ∀ other, other ∉ sightings (before ++ [.received ip allowed]) →
      Uncounted (before ++ [.received ip allowed]) credits other := by
    intro other hother
    rw [sightings_append, List.mem_append, not_or] at hother
    have hne : other ≠ ip := fun hsame => hother.2 (by simp [sightings, Event.sighting, hsame])
    exact hcredits ▸ (h.fresh other hother.1).append (hothers other hne)
  unfold Sources.received
  split
  · rename_i hfull
    refine ⟨fun other source hsource => ?_, hfresh⟩
    have hne : other ≠ ip := fun hsame => hfull.1 (hsame ▸ AList.mem_iff_lookup.mpr ⟨source, hsource⟩)
    exact hcredits ▸ (h.row other source hsource).append (hothers other hne)
  · rename_i hroom
    refine ⟨fun other source hsource => ?_, hfresh⟩
    rw [AList.lookup_insert'] at hsource
    split at hsource
    · rename_i hsame
      cases hsource
      have hentry : RowCounts before credits ip ((sources.entries.lookup ip).getD (Source.new ip allowed wallMs)) := by
        cases hentry : sources.entries.lookup ip with
        | some old => exact h.row ip old hentry
        | none =>
            have hout : ip ∉ sources.entries := AList.lookup_eq_none.mp hentry
            have hsize : sources.entries.size < sourceLimit := by
              by_contra hfull
              exact hroom ⟨hout, Nat.le_of_not_lt hfull⟩
            have hunseen : ip ∉ sightings before := by
              intro hseen
              rw [hbooks.tracked] at hout
              rw [hbooks.size] at hsize
              exact hout (admitted_of_room hseen hsize)
            obtain ⟨hreceived, hdropped, hforwarded⟩ := h.fresh ip hunseen
            refine ⟨hreceived.symm, hdropped.symm, ?_⟩
            rw [hforwarded]
            exact ⟨rfl, rfl, Ring.represents_empty, Ring.represents_empty⟩
      rw [hsame]
      refine ⟨?_, ?_, ⟨hentry.represents.address, hentry.represents.forwarded, hentry.represents.bySecond,
        hentry.represents.byMinute⟩⟩
      · rw [List.countP_append, ← hentry.received]
        simp [Source.countReceived, Event.isArrivalFrom]
      · rw [List.countP_append, ← hentry.dropped]
        rfl
    · rename_i hother
      exact hcredits ▸ (h.row other source hsource).append (hothers other hother)

end

/-! ### Steps -/

theorem Columns.drained {queue : List Message} {sources : Sources} {before : List Event} {credits : List Credit}
    (h : Columns sources before credits) (hseen : ∀ m ∈ queue, m.source ∈ sightings before) :
    Columns (queue.foldl (fun sources m => sources.dropped m.source) sources)
      (before ++ queue.map fun m => .finished m .shutdown) credits := by
  induction queue generalizing sources before with
  | nil =>
      rw [List.map_nil, List.append_nil]
      exact h
  | cons m rest ih =>
      rw [List.foldl_cons, List.map_cons, ← List.singleton_append, ← List.append_assoc]
      refine ih (h.dropped (hseen m List.mem_cons_self) (fun _ => by simp [Event.isLossFrom]) fun _ => rfl) ?_
      intro other hother
      rw [sightings_append]
      exact List.mem_append_left _ (hseen other (List.mem_cons_of_mem m hother))

/-- What a step of the relay does to the columns, unless it counts a message as forwarded. -/
theorem Columns.move {w w' : World} {before events : List Event} {credits : List Credit}
    (h : Columns w.shared.sources before credits) (hledger : SourceLedger cfg w.shared before)
    (hmove : Move lib cfg w w' events) (hsent : w.sender.pc = .sent → w'.sender.pc = .sent) :
    Columns w'.shared.sources (before ++ events) credits := by
  have hqueued : ∀ m ∈ w.shared.queue, m.source ∈ sightings before := fun m hm =>
    hledger.books.seen m.source (List.mem_map_of_mem hm)
  have harrived : ∀ {ip : IpAddr} {allowed : Bool}, ip ∈ sightings (before ++ [.received ip allowed]) := by
    intro ip allowed
    rw [sightings_append]
    exact List.mem_append_right _ List.mem_cons_self
  cases hmove with
  | quiet shared session pendingFrame sessions internal place =>
      rw [shared.sources]
      exact h.aside (Uncounted.of_internal internal)
  | @refused listener reason ip payload wallMs hrefusal hip =>
      have hreceived := h.received hledger.books ip (sourceAllowed cfg ip) wallMs
      have hrefused := hreceived.dropped (e := .refused ip reason) harrived (fun _ => by simp [Event.isLossFrom])
        fun _ => rfl
      rw [List.append_assoc] at hrefused
      exact hrefused
  | accepted ip payload wallMs hrefusal hip =>
      have hreceived := h.received hledger.books ip (sourceAllowed cfg ip) wallMs
      have haside : ∀ from_, Uncounted [.accepted ⟨payload, ip⟩] [] from_ := fun _ => ⟨rfl, rfl, rfl⟩
      have haccepted := hreceived.aside haside
      rw [List.append_assoc] at haccepted
      exact haccepted
  | established session hpc hshared =>
      rw [hshared.sources]
      exact h.aside fun _ => ⟨rfl, rfl, rfl⟩
  | oversized i session m rest hpc hsession hqueue hlarge =>
      have haside : ∀ from_, Uncounted [.maxPlaintext session i.maxPlaintext] [] from_ := fun _ => ⟨rfl, rfl, rfl⟩
      have hseen : m.source ∈ sightings (before ++ [.maxPlaintext session i.maxPlaintext]) := by
        rw [sightings_append]
        exact List.mem_append_left _ (hqueued m (by rw [hqueue]; exact List.mem_cons_self))
      have hdropped := (h.aside haside).dropped (e := .finished m .oversized) hseen
        (fun _ => by simp [Event.isLossFrom]) fun _ => rfl
      rw [List.append_assoc] at hdropped
      show Columns (finishFront w.shared false i.now i.wallMs).sources _ _
      rw [finishFront_sources hqueue]
      exact hdropped
  | forwarded i hpc => cases hsent hpc
  | drained hpc => exact h.drained hqueued
  | closed hnext =>
      refine h.aside fun ip => ?_
      cases w.sender.session <;> exact ⟨rfl, rfl, rfl⟩
  | connectFailed | opened | polled | taken | wrote => exact h.aside fun _ => ⟨rfl, rfl, rfl⟩

theorem Columns.next {w : World} {before : List Event} {credits : List Credit} {action : Action}
    (h : Columns w.shared.sources before credits) (hledger : SourceLedger cfg w.shared before) (hheld : Held w)
    (hnewest : ∀ i, action = .sender i → ∀ c ∈ credits, c.second ≤ w.shared.elapsedSecs i.now) :
    Columns (World.next lib cfg w action).shared.sources (before ++ World.emit lib cfg w action)
      (credits ++ w.forwarding action) := by
  by_cases hforwards : ∃ i, action = .sender i ∧ w.sender.pc = .sent
  · obtain ⟨i, rfl, hpc⟩ := hforwards
    obtain ⟨m, rest, hqueue, -⟩ := hheld.sent_head hpc
    have hseen : m.source ∈ sightings before :=
      hledger.books.seen m.source (List.mem_map_of_mem (by rw [hqueue]; exact List.mem_cons_self))
    have hforwarded := h.forwarded hseen (hnewest i rfl)
    simp only [World.next, World.emit, World.forwarding, senderStep, hpc, if_true]
    rw [finishFront_sources hqueue, hqueue]
    exact hforwarded
  · have hnone : w.forwarding action = [] := by
      cases action with
      | sender i => exact if_neg fun hpc => hforwards ⟨i, rfl, hpc⟩
      | _ => rfl
    rw [hnone, List.append_nil]
    refine h.move hledger (move_next w action) fun hpc => ?_
    rw [World.next_sender_eq w (fun i heq => hforwards ⟨i, heq, hpc⟩)]
    exact hpc

/-! ### Runs -/

theorem Move.started {w w' : World} {events : List Event} (hmove : Move lib cfg w w' events) :
    w'.shared.started = w.shared.started := by
  have hfinish : ∀ forwarded now wallMs, (finishFront w.shared forwarded now wallMs).started = w.shared.started := by
    intro forwarded now wallMs
    unfold finishFront
    cases w.shared.queue <;> rfl
  cases hmove with
  | quiet shared => exact shared.started
  | established session hpc hshared => exact hshared.started
  | oversized i | forwarded i => exact hfinish _ i.now i.wallMs
  | refused | accepted | connectFailed | opened | polled | taken | wrote | closed | drained => rfl

/-- The addresses of the messages that left the queue with fate `forwarded`, in order. -/
def forwardedSources (gone : List (Message × Fate)) : List IpAddr :=
  (gone.filter fun d => d.2 = .forwarded).map fun d => d.1.source

theorem forwardedSources_append (left right : List (Message × Fate)) :
    forwardedSources (left ++ right) = forwardedSources left ++ forwardedSources right := by
  simp only [forwardedSources, List.filter_append, List.map_append]

/-- What is counted as forwarded is what leaves the queue as forwarded. -/
theorem forwarding_ips (w : World) (action : Action) :
    (w.forwarding action).map Credit.ip = forwardedSources (departures (World.emit lib cfg w action)) := by
  by_cases hforwards : ∃ i, action = .sender i ∧ w.sender.pc = .sent
  · obtain ⟨i, rfl, hpc⟩ := hforwards
    simp only [World.forwarding, World.emit, senderStep, hpc, if_true]
    cases w.shared.queue <;> rfl
  · have hnone : w.forwarding action = [] := by
      cases action with
      | sender i => exact if_neg fun hpc => hforwards ⟨i, rfl, hpc⟩
      | _ => rfl
    have hsent : w.sender.pc = .sent → (World.next lib cfg w action).sender.pc = .sent := by
      intro hpc
      rw [World.next_sender_eq w (fun i heq => hforwards ⟨i, heq, hpc⟩)]
      exact hpc
    rw [hnone]
    have hmove : Move lib cfg w (World.next lib cfg w action) (World.emit lib cfg w action) := move_next w action
    generalize World.next lib cfg w action = w' at hmove hsent
    generalize World.emit lib cfg w action = events at hmove
    cases hmove with
    | quiet shared session pendingFrame sessions internal place =>
        have hgone : departures events = [] :=
          List.filterMap_eq_nil_iff.mpr fun e he => (Event.IsAside.of_internal (internal e he)).departure
        rw [hgone]
        rfl
    | forwarded i hpc => cases hsent hpc
    | closed hnext => cases w.sender.session <;> rfl
    | drained hpc =>
        have hgone : departures (w.shared.queue.map fun m => Event.finished m .shutdown) =
            w.shared.queue.map fun m => (m, Fate.shutdown) := by
          simp [departures, List.filterMap_map, Function.comp_def, Event.departure]
        rw [hgone]
        simp [forwardedSources]
    | refused | accepted | connectFailed | opened | established | polled | oversized | taken | wrote => rfl

theorem clock_append (actions more : List Action) : clock (actions ++ more) = clock actions ++ clock more :=
  List.flatMap_append

/-- The second in which a clock reading lies, counted from the start of the relay. -/
def Boot.second (boot : Boot) (now : Instant) : Nat := ⌊now - boot.started⌋₊

theorem Boot.second_le (boot : Boot) {now then_ : Instant} (h : now ≤ then_) : boot.second now ≤ boot.second then_ :=
  Nat.floor_mono (sub_le_sub_right h _)

/-- The columns throughout a run, with what is counted as forwarded in step with the clock. -/
structure Counted (lib : External) (cfg : Config) (boot : Boot) (actions : List Action) (w : World)
    (events : List Event) : Prop where
  columns : Columns w.shared.sources events ((forwarding lib cfg boot).trace actions)
  started : w.shared.started = boot.started
  read : ∀ c ∈ (forwarding lib cfg boot).trace actions, ∃ t ∈ clock actions, c.second = boot.second t
  ips : ((forwarding lib cfg boot).trace actions).map Credit.ip = forwardedSources (departures events)

theorem counted (actions : List Action) (hclock : (clock actions).Pairwise (· ≤ ·)) :
    Counted lib cfg boot actions ((relay lib cfg boot).run actions) ((relay lib cfg boot).trace actions) := by
  induction actions using List.reverseRecOn with
  | nil =>
      refine ⟨Columns.empty, rfl, fun c hc => ?_, rfl⟩
      cases hc
  | append_singleton actions action ih =>
      rw [clock_append] at hclock
      obtain ⟨hbefore, -, hlater⟩ := List.pairwise_append.mp hclock
      have h := ih hbefore
      have hheld : Held ((relay lib cfg boot).run actions) := held actions
      have hledger : SourceLedger cfg ((relay lib cfg boot).run actions).shared ((relay lib cfg boot).trace actions) :=
        sourceLedger actions
      rw [(relay lib cfg boot).run_append, (relay lib cfg boot).trace_append]
      have htrace : (forwarding lib cfg boot).trace (actions ++ [action]) =
          (forwarding lib cfg boot).trace actions ++ ((relay lib cfg boot).run actions).forwarding action := by
        rw [(forwarding lib cfg boot).trace_append, forwarding_run, Machine.traceFrom_cons, Machine.traceFrom_nil,
          List.append_nil]
        rfl
      rw [Machine.runFrom_cons, Machine.runFrom_nil, Machine.traceFrom_cons, Machine.traceFrom_nil, List.append_nil]
      generalize (relay lib cfg boot).run actions = w at h hheld hledger htrace
      have hsecond : ∀ i, w.shared.elapsedSecs i = boot.second i := by
        intro i
        rw [State.elapsedSecs, h.started, Boot.second]
      constructor
      · rw [htrace]
        refine h.columns.next hledger hheld fun i heq c hc => ?_
        obtain ⟨t, ht, hc⟩ := h.read c hc
        subst heq
        rw [hc, hsecond]
        exact boot.second_le (hlater t ht i.now List.mem_cons_self)
      · exact (Move.started (move_next w action)).trans h.started
      · intro c hc
        rw [htrace] at hc
        rcases List.mem_append.mp hc with hc | hc
        · obtain ⟨t, ht, hc⟩ := h.read c hc
          exact ⟨t, by rw [clock_append]; exact List.mem_append_left _ ht, hc⟩
        · cases action with
          | sender i =>
              simp only [World.forwarding] at hc
              split at hc
              · obtain ⟨m, -, rfl⟩ := Option.map_eq_some_iff.mp (Option.mem_toList.mp hc)
                refine ⟨i.now, ?_, hsecond i.now⟩
                rw [clock_append]
                exact List.mem_append_right _ List.mem_cons_self
              · cases hc
          | listener i | stop now | join => cases hc
      · rw [htrace, List.map_append, h.ips, departures_append, forwardedSources_append]
        exact congrArg _ (forwarding_ips w action)

/-- An address that has a row keeps it. -/
theorem tracked_forever (actions later : List Action) {ip : IpAddr}
    (htracked : ip ∈ ((relay lib cfg boot).run actions).shared.sources.entries) :
    ip ∈ ((relay lib cfg boot).run (actions ++ later)).shared.sources.entries := by
  have hbefore : SourceLedger cfg ((relay lib cfg boot).run actions).shared ((relay lib cfg boot).trace actions) :=
    sourceLedger actions
  have hafter : SourceLedger cfg ((relay lib cfg boot).run (actions ++ later)).shared
      ((relay lib cfg boot).trace (actions ++ later)) := sourceLedger (actions ++ later)
  rw [hafter.books.tracked, Machine.trace_append, sightings_append]
  exact (admitted_grows sourceLimit _ _).subset ((hbefore.books.tracked ip).mp htracked)

theorem RowCounts.of_snapshot {w : World} {events : List Event} {credits : List Credit}
    (h : Columns w.shared.sources events credits) {now : Instant} {row : SourceStatus}
    (hrow : row ∈ (snapshot w.shared now).sources) :
    ∃ source, w.shared.sources.entries.lookup row.ip = some source ∧
      row = source.row (w.shared.elapsedSecs now) ∧ RowCounts events credits row.ip source := by
  have hperm : (snapshot w.shared now).sources.Perm
      (w.shared.sources.entries.entries.map fun e => Source.row (w.shared.elapsedSecs now) e.2) :=
    Sources.snapshot_perm w.shared.sources (w.shared.elapsedSecs now)
  obtain ⟨e, he, rfl⟩ := List.mem_map.mp (hperm.mem_iff.mp hrow)
  have hentry : w.shared.sources.entries.lookup e.1 = some e.2 := AList.mem_entries_iff.mp he
  have hcounts : RowCounts events credits e.1 e.2 := h.row e.1 e.2 hentry
  have hip : (Source.row (w.shared.elapsedSecs now) e.2).ip = e.1 := hcounts.represents.address
  rw [hip]
  exact ⟨e.2, hentry, rfl, hcounts⟩

/-- Every column of every row of every snapshot is a count of what happened since the start, and the totals of
two snapshots differ by what happened in between. The arrivals are the datagrams the listener gets from the
address. -/
theorem columns_count_what_happened (lib : External) (cfg : Config) (boot : Boot) (actions : List Action) (now : Instant)
    (hclock : (clock actions ++ [now]).Pairwise (· ≤ ·)) :
    let relay := relay lib cfg boot
    let w := relay.run actions
    let events := relay.trace actions
    let counted := (forwarding lib cfg boot).trace actions
    let s := boot.second now
    counted.map Credit.ip = forwardedSources (departures events) ∧
      ∀ row ∈ (snapshot w.shared now).sources,
        let seconds := creditSeconds row.ip counted
        row.messagesReceived = events.countP (Event.isArrivalFrom row.ip) ∧
          row.messagesReceived = ((incoming lib cfg boot).trace actions).count row.ip ∧
          row.messagesDropped = events.countP (Event.isLossFrom row.ip) ∧
          row.messagesForwarded = seconds.length ∧
          row.messagesPerSecond = seconds.countP (fun second : Nat => (second : ℤ) = s - 1) ∧
          row.messagesPerMinute = seconds.countP (fun second : Nat =>
            (s : ℤ) - 60 ≤ second ∧ (second : ℤ) ≤ s - 1) ∧
          row.messagesLast24h = seconds.countP (fun second : Nat =>
            ((s / 60 : Nat) : ℤ) - 1440 < (second / 60 : Nat) ∧ second / 60 ≤ s / 60) ∧
          ∀ (later : List Action) (then_ : Instant), (clock (actions ++ later)).Pairwise (· ≤ ·) →
            ∃ row' ∈ (snapshot (relay.run (actions ++ later)).shared then_).sources,
              row'.ip = row.ip ∧
                row'.messagesReceived = row.messagesReceived +
                  (relay.traceFrom w later).countP (Event.isArrivalFrom row.ip) ∧
                row'.messagesDropped = row.messagesDropped +
                  (relay.traceFrom w later).countP (Event.isLossFrom row.ip) ∧
                row'.messagesForwarded = row.messagesForwarded +
                  (forwardedSources (departures (relay.traceFrom w later))).count row.ip := by
  intro relay w events credits s
  obtain ⟨hbefore, -, hnow⟩ := List.pairwise_append.mp hclock
  have h : Counted lib cfg boot actions w events := counted actions hbefore
  refine ⟨h.ips, fun row hrow => ?_⟩
  intro seconds
  have hsecond : w.shared.elapsedSecs now = s := by
    show ⌊now - w.shared.started⌋₊ = ⌊now - boot.started⌋₊
    rw [h.started]
  obtain ⟨source, hentry, hrow, hcounts⟩ := RowCounts.of_snapshot h.columns hrow
  have hbound : ∀ second ∈ seconds, second ≤ s := by
    intro second hin
    obtain ⟨c, hc, rfl⟩ := List.mem_map.mp hin
    obtain ⟨t, ht, hread⟩ := h.read c (List.mem_of_mem_filter hc)
    rw [hread]
    exact boot.second_le (hnow t ht now List.mem_cons_self)
  obtain ⟨hpersecond, hperminute, hperday⟩ := hcounts.represents.row hbound
  rw [hsecond] at hrow
  have hreceived : row.messagesReceived = events.countP (Event.isArrivalFrom row.ip) := by
    rw [hrow] at hcounts ⊢
    exact hcounts.received
  have hdropped : row.messagesDropped = events.countP (Event.isLossFrom row.ip) := by
    rw [hrow] at hcounts ⊢
    exact hcounts.dropped
  have hforwarded : row.messagesForwarded = seconds.length := by
    rw [← hcounts.represents.forwarded, hrow]
    rfl
  have harrived : row.messagesReceived = ((incoming lib cfg boot).trace actions).count row.ip := by
    rw [hreceived, countP_isArrivalFrom, sightings_trace]
  refine ⟨hreceived, harrived, hdropped, hforwarded, ?_, ?_, ?_, ?_⟩
  · rw [← hpersecond, hrow]
  · rw [← hperminute, hrow]
  · rw [← hperday, hrow]
  · intro later then_ hlater
    have hafter : Counted lib cfg boot (actions ++ later) (relay.run (actions ++ later))
        (relay.trace (actions ++ later)) := counted (actions ++ later) hlater
    have hkept : row.ip ∈ (relay.run (actions ++ later)).shared.sources.entries :=
      tracked_forever actions later (AList.mem_iff_lookup.mpr ⟨source, hentry⟩)
    obtain ⟨source', hentry'⟩ := AList.mem_iff_lookup.mp hkept
    have hcounts' := hafter.columns.row row.ip source' hentry'
    have hin : source'.row ((relay.run (actions ++ later)).shared.elapsedSecs then_) ∈
        (snapshot (relay.run (actions ++ later)).shared then_).sources :=
      (Sources.snapshot_perm _ _).mem_iff.mpr
        (List.mem_map_of_mem (f := fun e => Source.row _ e.2) (AList.mem_entries_iff.mpr hentry'))
    refine ⟨_, hin, hcounts'.represents.address, ?_, ?_, ?_⟩
    · have hreceived' := hcounts'.received
      rw [relay.trace_append, List.countP_append] at hreceived'
      rw [hreceived]
      exact hreceived'
    · have hdropped' := hcounts'.dropped
      rw [relay.trace_append, List.countP_append] at hdropped'
      rw [hdropped]
      exact hdropped'
    · -- what both machines have heard before the later actions is the same, so it is the same since
      have hips := hafter.ips
      rw [(forwarding lib cfg boot).trace_append, relay.trace_append, departures_append, forwardedSources_append,
        List.map_append, h.ips] at hips
      have hsince := List.append_cancel_left hips
      have hforwarded' := hcounts'.represents.forwarded
      rw [(forwarding lib cfg boot).trace_append, creditSeconds_append, List.length_append,
        creditSeconds_length row.ip (Machine.traceFrom _ _ _), hsince] at hforwarded'
      rw [hforwarded]
      exact hforwarded'

/-- One message that is forwarded at once, seen a second later. -/
theorem columns_count_one_message :
    let lib : External := ⟨fun _ => false, some, fun _ => none, fun _ => []⟩
    let boot : Boot := ⟨⟨.v4 0x7f000001#32, 1514⟩, "", 0, 0, 0, 0⟩
    let up : SenderInput :=
      ⟨0, 0, 0, .ok (), .result (.ok [⟨.v4 0x0a000001#32, 6514⟩]), .ok (), ⟨"", "", ""⟩, .ok (), 1200, .ok .sent⟩
    let actions : List Action :=
      [.listener ⟨.again, 0, 0⟩, .listener ⟨.datagram (.v4 0x7f000001#32) (asBytes "<34>1 - h a p m -"), 0, 0⟩] ++
        List.replicate 14 (.sender up)
    let sources := (snapshot ((relay lib Config.default boot).run actions).shared 1).sources
    sources.map SourceStatus.ip = [.v4 0x7f000001#32] ∧
      ∀ row ∈ sources, row.messagesReceived = 1 ∧ row.messagesDropped = 0 ∧ row.messagesForwarded = 1 ∧
        row.messagesPerSecond = 1 := by
  intro lib boot up actions sources
  have hips : sources.map SourceStatus.ip = [.v4 0x7f000001#32] := by decide +kernel
  refine ⟨hips, fun row hrow => ?_⟩
  have hip : row.ip = .v4 0x7f000001#32 := by
    have hin := List.mem_map_of_mem (f := SourceStatus.ip) hrow
    rw [hips] at hin
    exact List.mem_singleton.mp hin
  have hcounts := (columns_count_what_happened lib Config.default boot actions 1 (by decide +kernel)).2 row hrow
  rw [hip] at hcounts
  obtain ⟨hreceived, -, hdropped, hforwarded, hpersecond, -⟩ := hcounts
  refine ⟨hreceived.trans ?_, hdropped.trans ?_, hforwarded.trans ?_, hpersecond.trans ?_⟩ <;> decide +kernel

end SyslogDtlsAgent
