import SyslogDtlsAgent.Library.Spacing
import SyslogDtlsAgent.Proof.Config.Validate
import SyslogDtlsAgent.Proof.Relay.Moves

/-!
# Output pacing

The gate is one timestamp, tested when a frame is built and moved when a write was reported sent. The
invariant carries the test along with the frame: while there is a frame to write, some clock reading has
passed the timestamp, and the timestamp lies a gap behind the return of every write reported sent.
-/

namespace SyslogDtlsAgent

open Library

variable {lib : External} {cfg : Config} {boot : Boot}

/-! ### Writes and clock readings -/

/-- A call of `Session::send`, from when to when, and whether it was reported sent. -/
structure Write where
  sent : Bool
  called : Instant
  returned : Instant
  deriving DecidableEq

def Event.write : Event → Option Write
  | .wrote _ _ result called returned => some ⟨match result with | .ok .sent => true | _ => false, called, returned⟩
  | _ => none

def writes (events : List Event) : List Write := events.filterMap Event.write

/-- The clock readings of the sender's steps. -/
def readings (actions : List Action) : List Instant :=
  actions.flatMap fun
    | .sender i => [i.now, i.returned]
    | _ => []

/-- The time between two writes. -/
def Config.gap (cfg : Config) : Duration := 1 / (cfg.dtls.messagesPerSecond : ℚ)

/-- Some clock reading has passed the instant. -/
def Reached (readings : List Instant) (instant : Instant) : Prop := ∃ r ∈ readings, instant ≤ r

theorem Reached.append {earlier : List Instant} {instant : Instant} (h : Reached earlier instant) (later : List Instant) :
    Reached (earlier ++ later) instant := by
  obtain ⟨r, hr, hle⟩ := h
  exact ⟨r, List.mem_append_left _ hr, hle⟩

/-- Along a clock that never goes back, what was reached lies before the next reading. -/
theorem Reached.le {earlier later : List Instant} {instant now : Instant} (h : Reached earlier instant)
    (hclock : (earlier ++ later).Pairwise (· ≤ ·)) (hnow : now ∈ later) : instant ≤ now := by
  obtain ⟨r, hr, hle⟩ := h
  exact hle.trans ((List.pairwise_append.mp hclock).2.2 r hr now hnow)

/-! ### One step -/

/-- Where the sender stands with respect to the gate. -/
inductive Gate where
  | closed
  /-- The timestamp has been tested and a frame may be built. -/
  | opened
  /-- A write was reported sent and the timestamp has not been moved yet. -/
  | reported
  deriving DecidableEq

def Pc.gate : Pc → Gate
  | .take => .opened
  | .sent | .pace => .reported
  | _ => .closed

/-- What a step of the sender does to the gate. -/
inductive Stroke (cfg : Config) (i : SenderInput) (t t' : Sender) : List Event → Prop where
  | aside {events : List Event} (hgate : t.pc.gate = .closed) (hgate' : t'.pc.gate = .closed)
      (hframe : t'.pendingFrame = t.pendingFrame ∨ t'.pendingFrame = none) (hnext : t'.nextSend = t.nextSend)
      (hwrites : writes events = []) : Stroke cfg i t t' events
  | opens (hgate' : t'.pc.gate = .opened) (hgate : t.pc.gate = .closed) (hnow : t.nextSend ≤ i.now)
      (hframe : t'.pendingFrame = t.pendingFrame) (hnext : t'.nextSend = t.nextSend) : Stroke cfg i t t' []
  | builds {events : List Event} (hgate : t.pc.gate = .opened) (hgate' : t'.pc.gate = .closed)
      (hnext : t'.nextSend = t.nextSend) (hwrites : writes events = []) : Stroke cfg i t t' events
  | writes {session : Nat} {bytes : Bytes} {result : Except String WriteOutcome} (hgate : t.pc.gate = .closed)
      (hgate' : t'.pc.gate = .closed) (hresult : result ≠ .ok .sent) (hframe : t.pendingFrame.isSome = true)
      (hframe' : t'.pendingFrame = t.pendingFrame) (hnext : t'.nextSend = t.nextSend) :
      Stroke cfg i t t' [.wrote session bytes result i.now i.returned]
  | reports {session : Nat} {bytes : Bytes} (hgate : t.pc.gate = .closed) (hpc' : t'.pc = .sent)
      (hframe : t.pendingFrame.isSome = true) (hframe' : t'.pendingFrame = t.pendingFrame)
      (hnext : t'.nextSend = t.nextSend) :
      Stroke cfg i t t' [.wrote session bytes (.ok .sent) i.now i.returned]
  | clears {events : List Event} (hpc : t.pc = .sent) (hpc' : t'.pc = .pace) (hframe : t'.pendingFrame = none)
      (hnext : t'.nextSend = t.nextSend) (hwrites : SyslogDtlsAgent.writes events = []) : Stroke cfg i t t' events
  | paces (hpc : t.pc = .pace) (hgate' : t'.pc.gate = .closed) (hframe : t'.pendingFrame = t.pendingFrame)
      (hnext : t'.nextSend = i.now + cfg.gap) : Stroke cfg i t t' []

theorem writes_drained (queue : List Message) : writes (queue.map fun m => .finished m .shutdown) = [] :=
  List.filterMap_eq_nil_iff.mpr fun e he => by
    obtain ⟨m, -, rfl⟩ := List.mem_map.mp he
    rfl

theorem sender_stroke (i : SenderInput) (s : State) (t : Sender) :
    Stroke cfg i t (senderStep lib cfg i s t).sender (senderStep lib cfg i s t).events := by
  cases hpc : t.pc with
  | fetch =>
      simp only [senderStep, hpc]
      split
      · rename_i hnow
        exact .opens rfl (by rw [hpc]; rfl) hnow rfl rfl
      · exact .aside (by rw [hpc]; rfl) rfl (.inl rfl) rfl rfl
  | take =>
      simp only [senderStep, hpc]
      repeat' split
      all_goals exact .builds (by rw [hpc]; rfl) rfl rfl rfl
  | writing =>
      have hgate : t.pc.gate = .closed := by
        rw [hpc]
        rfl
      simp only [senderStep, hpc]
      split
      · exact .aside hgate rfl (.inl rfl) rfl rfl
      · exact .aside hgate rfl (.inl rfl) rfl rfl
      · rename_i bytes session hframe hsession
        have hpending : t.pendingFrame.isSome = true := Option.isSome_of_eq_some hframe
        split
        · rename_i hsent
          rw [hsent]
          exact .reports hgate rfl hpending rfl rfl
        · rename_i hblocked
          split
          · exact .writes hgate rfl (by simp [hblocked]) hpending rfl rfl
          · exact .writes hgate rfl (by simp [hblocked]) hpending rfl rfl
        · rename_i error herror
          exact .writes hgate rfl (by simp [herror]) hpending rfl rfl
  | sent =>
      simp only [senderStep, hpc]
      refine .clears hpc rfl rfl rfl ?_
      cases s.queue <;> rfl
  | pace =>
      simp only [senderStep, hpc]
      exact .paces hpc rfl rfl rfl
  | closing =>
      simp only [senderStep, hpc]
      refine .aside (by rw [hpc]; rfl) rfl (.inl rfl) rfl ?_
      cases t.session <;> rfl
  | drain =>
      simp only [senderStep, hpc]
      exact .aside (by rw [hpc]; rfl) rfl (.inl rfl) rfl (writes_drained s.queue)
  | _ =>
      simp only [senderStep, hpc]
      repeat' split
      all_goals first
        | exact .aside (by rw [hpc]; rfl) rfl (.inl rfl) rfl rfl
        | exact .aside (by rw [hpc]; rfl) rfl (.inr rfl) rfl rfl

/-! ### Every run -/

@[simp] theorem writes_append (left right : List Event) : writes (left ++ right) = writes left ++ writes right :=
  List.filterMap_append

@[simp] theorem readings_append (left right : List Action) :
    readings (left ++ right) = readings left ++ readings right :=
  List.flatMap_append

/-- A write keeps its distance from every earlier one that was reported sent. -/
def Write.Paced (gap : Duration) (w w' : Write) : Prop :=
  w.sent = true → Spaced Write.called Write.returned gap w w'

/-- The sender against the writes so far and the readings so far. -/
structure Paced (cfg : Config) (t : Sender) (writes : List Write) (readings : List Instant) : Prop where
  spaced : writes.Pairwise (Write.Paced cfg.gap)
  ordered : ∀ w ∈ writes, w.called ≤ w.returned
  elapsed : ∀ w ∈ writes, Reached readings w.returned
  ahead : t.pc.gate ≠ .reported → ∀ w ∈ writes, w.sent = true → w.returned + cfg.gap ≤ t.nextSend
  opened : t.pc.gate = .opened → Reached readings t.nextSend
  pending : t.pendingFrame.isSome = true → Reached readings t.nextSend
  cleared : t.pc = .pace → t.pendingFrame = none

theorem Paced.start : Paced cfg (Sender.start cfg boot) [] [] where
  spaced := .nil
  ordered _ hw := absurd hw List.not_mem_nil
  elapsed _ hw := absurd hw List.not_mem_nil
  ahead _ _ hw := absurd hw List.not_mem_nil
  opened h := by cases h
  pending h := by cases h
  cleared h := by cases h

/-- A write of a pending frame comes after every earlier write and the gap behind it. -/
theorem Paced.write {t : Sender} {earlier : List Write} {before : List Instant} (h : Paced cfg t earlier before)
    {w : Write} (hclock : (before ++ [w.called, w.returned]).Pairwise (· ≤ ·)) (hgate : t.pc.gate = .closed)
    (hframe : t.pendingFrame.isSome = true) :
    (earlier ++ [w]).Pairwise (Write.Paced cfg.gap) ∧ (∀ w' ∈ earlier ++ [w], w'.called ≤ w'.returned) ∧
      ∀ w' ∈ earlier ++ [w], Reached (before ++ [w.called, w.returned]) w'.returned := by
  have hnext : t.nextSend ≤ w.called := (h.pending hframe).le hclock List.mem_cons_self
  have hcall : w.called ≤ w.returned := by
    simpa using (List.pairwise_append.mp hclock).2.1
  have hmem : ∀ {w'}, w' ∈ earlier ++ [w] → w' ∈ earlier ∨ w' = w := fun hw => by simpa using hw
  refine ⟨List.pairwise_append.mpr ⟨h.spaced, List.pairwise_singleton _ _, fun w' hw' x hx hsent => ?_⟩,
    fun w' hw' => ?_, fun w' hw' => ?_⟩
  · obtain rfl := List.mem_singleton.mp hx
    exact (h.ahead (by rw [hgate]; decide) w' hw' hsent).trans hnext
  · rcases hmem hw' with hw' | rfl
    · exact h.ordered w' hw'
    · exact hcall
  · rcases hmem hw' with hw' | rfl
    · exact (h.elapsed w' hw').append _
    · exact ⟨w'.returned, by simp, le_refl _⟩

/-- What is left to show where the gate is closed. -/
theorem Paced.of_closed {t : Sender} {writes : List Write} {readings : List Instant} (hgate : t.pc.gate = .closed)
    (spaced : writes.Pairwise (Write.Paced cfg.gap)) (ordered : ∀ w ∈ writes, w.called ≤ w.returned)
    (elapsed : ∀ w ∈ writes, Reached readings w.returned)
    (ahead : ∀ w ∈ writes, w.sent = true → w.returned + cfg.gap ≤ t.nextSend)
    (pending : t.pendingFrame.isSome = true → Reached readings t.nextSend) : Paced cfg t writes readings := by
  refine ⟨spaced, ordered, elapsed, fun _ => ahead, fun hopened => ?_, pending, fun hpace => ?_⟩
  · rw [hgate] at hopened
    cases hopened
  · rw [hpace] at hgate
    cases hgate

theorem Paced.stroke {i : SenderInput} {t t' : Sender} {events : List Event} {earlier : List Write}
    {before : List Instant} (h : Paced cfg t earlier before) (hstroke : Stroke cfg i t t' events)
    (hclock : (before ++ [i.now, i.returned]).Pairwise (· ≤ ·)) :
    Paced cfg t' (earlier ++ writes events) (before ++ [i.now, i.returned]) := by
  have helapsed : ∀ w ∈ earlier, Reached (before ++ [i.now, i.returned]) w.returned := fun w hw =>
    (h.elapsed w hw).append _
  have hpending : t.pendingFrame.isSome = true → Reached (before ++ [i.now, i.returned]) t.nextSend :=
    fun hframe => (h.pending hframe).append _
  cases hstroke with
  | aside hgate hgate' hframe hnext hwrites =>
      rw [hwrites, List.append_nil]
      apply Paced.of_closed hgate' h.spaced h.ordered helapsed <;> rw [hnext]
      · exact h.ahead (by rw [hgate]; decide)
      · intro hsome
        rcases hframe with hframe | hframe
        · exact hpending (hframe ▸ hsome)
        · rw [hframe] at hsome
          cases hsome
  | opens hgate' hgate hnow hframe hnext =>
      rw [show writes [] = [] from rfl, List.append_nil]
      have hreached : Reached (before ++ [i.now, i.returned]) t'.nextSend := ⟨i.now, by simp, hnext ▸ hnow⟩
      refine ⟨h.spaced, h.ordered, helapsed, fun _ => ?_, fun _ => hreached, fun _ => hreached, fun hpace => ?_⟩
      · rw [hnext]
        exact h.ahead (by rw [hgate]; decide)
      · rw [hpace] at hgate'
        cases hgate'
  | builds hgate hgate' hnext hwrites =>
      rw [hwrites, List.append_nil]
      apply Paced.of_closed hgate' h.spaced h.ordered helapsed <;> rw [hnext]
      · exact h.ahead (by rw [hgate]; decide)
      · exact fun _ => (h.opened hgate).append _
  | @writes session bytes result hgate hgate' hresult hframe hframe' hnext =>
      obtain ⟨sent, hwrites, hsent⟩ : ∃ sent,
          writes [.wrote session bytes result i.now i.returned] = [⟨sent, i.now, i.returned⟩] ∧ sent = false := by
        refine ⟨_, rfl, ?_⟩
        split
        · exact absurd rfl hresult
        · rfl
      obtain ⟨hspaced, hordered, hreturned⟩ := h.write (w := ⟨sent, i.now, i.returned⟩) hclock hgate hframe
      rw [hwrites]
      apply Paced.of_closed hgate' hspaced hordered hreturned <;> rw [hnext]
      · intro w hw hw_sent
        rcases List.mem_append.mp hw with hw | hw
        · exact h.ahead (by rw [hgate]; decide) w hw hw_sent
        · rw [List.mem_singleton.mp hw, hsent] at hw_sent
          cases hw_sent
      · exact fun _ => hpending hframe
  | @reports session bytes hgate hpc' hframe hframe' hnext =>
      obtain ⟨hspaced, hordered, hreturned⟩ := h.write (w := ⟨true, i.now, i.returned⟩) hclock hgate hframe
      refine ⟨hspaced, hordered, hreturned, fun hnot => ?_, fun hopened => ?_, fun _ => ?_, fun hpace => ?_⟩
      · rw [hpc'] at hnot
        exact absurd rfl hnot
      · rw [hpc'] at hopened
        cases hopened
      · rw [hnext]
        exact hpending hframe
      · rw [hpc'] at hpace
        cases hpace
  | clears hpc hpc' hframe hnext hwrites =>
      rw [hwrites, List.append_nil]
      refine ⟨h.spaced, h.ordered, helapsed, fun hnot => ?_, fun hopened => ?_, fun hsome => ?_, fun _ => hframe⟩
      · rw [hpc'] at hnot
        exact absurd rfl hnot
      · rw [hpc'] at hopened
        cases hopened
      · rw [hframe] at hsome
        cases hsome
  | paces hpc hgate' hframe hnext =>
      rw [show writes [] = [] from rfl, List.append_nil]
      apply Paced.of_closed hgate' h.spaced h.ordered helapsed
      · intro w hw _
        have hle : w.returned ≤ i.now := (h.elapsed w hw).le hclock List.mem_cons_self
        rw [hnext]
        exact add_le_add_left hle cfg.gap
      · intro hsome
        rw [hframe, h.cleared hpc] at hsome
        cases hsome

/-- Only the sender writes. -/
theorem writes_emit_of_other (w : World) {action : Action} (h : ∀ i, action ≠ .sender i) :
    writes (World.emit lib cfg w action) = [] := by
  cases action with
  | sender i => exact absurd rfl (h i)
  | stop | join => rfl
  | listener i =>
      simp only [World.emit, listenStep]
      repeat' split
      all_goals first
        | rfl
        | simp only [receive]
          split <;> rfl

theorem paced (actions : List Action) (hclock : (readings actions).Pairwise (· ≤ ·)) :
    Paced cfg ((relay lib cfg boot).run actions).sender (writes ((relay lib cfg boot).trace actions))
      (readings actions) := by
  revert hclock
  refine (relay lib cfg boot).induction_on
    (P := fun actions w events =>
      (readings actions).Pairwise (· ≤ ·) → Paced cfg w.sender (writes events) (readings actions))
    (fun _ => Paced.start) (fun before w events action ih hclock => ?_) actions
  rw [readings_append] at hclock ⊢
  have h := ih (List.pairwise_append.mp hclock).1
  rw [writes_append]
  by_cases hsender : ∃ i, action = .sender i
  · obtain ⟨i, rfl⟩ := hsender
    exact h.stroke (sender_stroke i w.shared w.sender) hclock
  · have hother := not_exists.mp hsender
    have hquiet : readings [action] = [] := by
      cases action with
      | sender i => exact absurd rfl (hother i)
      | listener | stop | join => rfl
    have hsame : ((relay lib cfg boot).next w action).sender = w.sender := World.next_sender_eq w hother
    have hwrites : writes ((relay lib cfg boot).emit w action) = [] := writes_emit_of_other w hother
    rw [hquiet, hsame, hwrites, List.append_nil, List.append_nil]
    exact h

/-- The write was reported sent and was under way at some time in the window. -/
def Write.sentWithin (start finish : Instant) (w : Write) : Bool :=
  w.sent && (start ≤ w.returned && w.called ≤ finish)

/-- In every run under a clock that never goes back, whatever the transport does: every write starts a gap
after the return of every earlier write that was reported sent, so a window of length `T` meets at most
`messages_per_second * T + 1` of those. -/
theorem output_is_paced (hvalid : cfg.validate lib = .ok ()) (actions : List Action)
    (hclock : (readings actions).Pairwise (· ≤ ·)) :
    let events : List Event := (relay lib cfg boot).trace actions
    let rate := (cfg.dtls.messagesPerSecond : ℚ)
    (∀ (i j : Nat) k k' bytes bytes' result called called' returned returned', i < j →
      events[i]? = some (.wrote k bytes (.ok .sent) called returned) →
        events[j]? = some (.wrote k' bytes' result called' returned') → returned + 1 / rate ≤ called') ∧
      ∀ start length, 0 ≤ length →
        ((writes events).countP (Write.sentWithin start (start + length)) : ℚ) ≤ rate * length + 1 := by
  have h := @paced lib cfg boot actions hclock
  intro events rate
  constructor
  · intro i j k k' bytes bytes' result called called' returned returned' hij hi hj
    obtain ⟨hi, hget⟩ := List.getElem?_eq_some_iff.mp hi
    obtain ⟨hj, hget'⟩ := List.getElem?_eq_some_iff.mp hj
    have hpair := List.pairwise_iff_getElem.mp (List.pairwise_filterMap.mp h.spaced) i j hi hj hij
    exact hpair ⟨true, called, returned⟩ (by rw [hget]; rfl) _ (by rw [hget']; rfl) rfl
  · intro start length hlength
    have hrate : 0 < rate := Nat.cast_pos.mpr (Config.validate_eq_ok.mp hvalid).1.messagesPerSecond.1
    have hmem : ∀ {w}, w ∈ (writes events).filter (Write.sentWithin start (start + length)) →
        w ∈ writes events ∧ w.sent = true ∧ start ≤ w.returned ∧ w.called ≤ start + length := fun hw => by
      simpa [Write.sentWithin] using List.mem_filter.mp hw
    rw [List.countP_eq_length_filter]
    refine @Spaced.count_le _ _ _ _ _ Write.called Write.returned _ _ _ _ hrate ?_
      (fun w hw => h.ordered w (hmem hw).1) hlength (fun w hw => (hmem hw).2.2)
    exact (h.spaced.filter _).imp_of_mem fun hw _ hpaced => hpaced (hmem hw).2.1

/-- A backlog of two messages, drained by a sender that takes a millisecond for each of its steps. -/
theorem output_is_paced_over_a_backlog :
    let lib : External := ⟨fun _ => false, some, fun _ => none, fun _ => []⟩
    let boot : Boot := ⟨⟨.v4 0x7f000001#32, 1514⟩, "", 0, 0, 0, 0⟩
    let message : Action := .listener ⟨.datagram (.v4 1#32) (asBytes "<13>1 - - - - - -"), 0, 0⟩
    let step (n : Nat) : Action := .sender
      ⟨fromMillis n, fromMillis n, 0, .ok (), .result (.ok [⟨.v4 1#32, 6514⟩]), .ok (), ⟨"", "", ""⟩, .ok (), 1000,
        .ok .sent⟩
    let events := (relay lib Config.default boot).trace
      ([message, message, message, message] ++ (List.range 20).map step)
    writes events = [⟨true, fromMillis 11, fromMillis 11⟩, ⟨true, fromMillis 19, fromMillis 19⟩] ∧
      ((writes events).countP (Write.sentWithin 0 (0 + 1)) : ℚ) ≤ 1000 * 1 + 1 := by
  intro lib boot message step events
  have hclock : (readings ([message, message, message, message] ++ (List.range 20).map step)).Pairwise (· ≤ ·) := by
    decide +kernel
  have hpaced := @output_is_paced lib Config.default boot (Config.default_valid lib rfl) _ hclock
  exact ⟨by decide +kernel, hpaced.2 0 1 zero_le_one⟩

end SyslogDtlsAgent
