import SyslogDtlsAgent.Proof.Relay.Ledger

/-!
# First in, first out

What happened to the accepted messages, read off the events of a run. Messages leave the queue at its
head only, each with one fate; the frames the transport took are those of the messages forwarded so
far, and the head's frame between the write that was reported sent and the removal of the head.
-/

namespace SyslogDtlsAgent

open Library

variable {lib : External} {cfg : Config} {boot : Boot}

def Event.arrival : Event → Option Message
  | .accepted m => some m
  | _ => none

def Event.departure : Event → Option (Message × Fate)
  | .finished m fate => some (m, fate)
  | _ => none

/-- The buffer of a write that returned `Sent`. -/
def Event.delivery : Event → Option Bytes
  | .wrote _ bytes (.ok .sent) _ _ => some bytes
  | _ => none

def Event.refusal : Event → Option Drop
  | .refused _ reason => some reason
  | _ => none

/-- The messages pushed on the queue, in order. -/
def arrivals (events : List Event) : List Message := events.filterMap Event.arrival

/-- The messages that left the queue, in order. -/
def departures (events : List Event) : List (Message × Fate) := events.filterMap Event.departure

/-- The buffers the transport reported sent, in order. -/
def delivered (events : List Event) : List Bytes := events.filterMap Event.delivery

/-- Why datagrams were dropped on arrival. -/
def refusals (events : List Event) : List Drop := events.filterMap Event.refusal

/-- The frames of the messages with fate `forwarded`, in the order in which they left. -/
def forwardedFrames (gone : List (Message × Fate)) : List Bytes :=
  (gone.filter fun d => d.2 = .forwarded).map fun d => frame d.1.payload

def fateCount (fate : Fate) (gone : List (Message × Fate)) : Nat := (gone.map Prod.snd).count fate

/-- The frame reported sent whose message is still at the head of the queue. -/
def Sender.acknowledged (t : Sender) : List Bytes :=
  if t.pc = .sent then t.pendingFrame.toList else []

structure Fifo (w : World) (events : List Event) : Prop where
  order : arrivals events = (departures events).map Prod.fst ++ w.shared.queue
  delivered : delivered events =
    forwardedFrames (departures events) ++ w.sender.acknowledged
  forwarded : w.shared.status.messagesForwarded = fateCount .forwarded (departures events)
  oversized : w.shared.status.drops.oversized =
    (refusals events).count .oversized + fateCount .oversized (departures events)
  shutdown : w.shared.status.drops.shutdown =
    (refusals events).count .shutdown + fateCount .shutdown (departures events)

section Append

variable (left right : List Event)

@[simp] theorem arrivals_append : arrivals (left ++ right) = arrivals left ++ arrivals right :=
  List.filterMap_append

@[simp] theorem departures_append :
    departures (left ++ right) = departures left ++ departures right :=
  List.filterMap_append

@[simp] theorem delivered_append : delivered (left ++ right) = delivered left ++ delivered right :=
  List.filterMap_append

@[simp] theorem refusals_append : refusals (left ++ right) = refusals left ++ refusals right :=
  List.filterMap_append

end Append

/-- An event that says nothing about the queue. -/
structure Event.IsAside (e : Event) : Prop where
  arrival : e.arrival = none
  departure : e.departure = none
  delivery : e.delivery = none
  refusal : e.refusal = none

theorem Event.IsAside.of_internal {e : Event} (h : e.isInternal = true) : e.IsAside := by
  cases e <;> first | exact ⟨rfl, rfl, rfl, rfl⟩ | cases h

theorem Fifo.start : Fifo (World.start cfg boot) [] := by
  constructor <;> rfl

theorem pc_place_sent {pc : Pc} : pc.place = .sent ↔ pc = .sent := by
  cases pc <;> simp [Pc.place]

/-- What a move has to show about the events it adds. -/
theorem Fifo.extend {w w' : World} {before events : List Event} (h : Fifo w before)
    (pushed : List Message) (gone : List (Message × Fate)) (sent : List Bytes) (refused : List Drop)
    (hevents : arrivals events = pushed ∧ departures events = gone ∧
      SyslogDtlsAgent.delivered events = sent ∧ refusals events = refused)
    (hqueue : w.shared.queue ++ pushed = gone.map Prod.fst ++ w'.shared.queue)
    (hsent : w.sender.acknowledged ++ sent = forwardedFrames gone ++ w'.sender.acknowledged)
    (hforwarded : w'.shared.status.messagesForwarded =
      w.shared.status.messagesForwarded + fateCount .forwarded gone)
    (hoversized : w'.shared.status.drops.oversized =
      w.shared.status.drops.oversized + refused.count .oversized + fateCount .oversized gone)
    (hshutdown : w'.shared.status.drops.shutdown =
      w.shared.status.drops.shutdown + refused.count .shutdown + fateCount .shutdown gone) :
    Fifo w' (before ++ events) := by
  obtain ⟨hpushed, hgone, hdelivered, hrefused⟩ := hevents
  have horder := h.order
  have hframes := h.delivered
  constructor
  · rw [arrivals_append, departures_append, hpushed, hgone, horder, List.map_append,
      List.append_assoc, List.append_assoc, hqueue]
  · rw [delivered_append, departures_append, hdelivered, hgone, hframes, List.append_assoc, hsent]
    simp only [forwardedFrames, List.filter_append, List.map_append, List.append_assoc]
  · rw [departures_append, hgone, hforwarded, h.forwarded]
    simp only [fateCount, List.map_append, List.count_append]
  · rw [departures_append, refusals_append, hgone, hrefused, hoversized, h.oversized]
    simp only [fateCount, List.map_append, List.count_append]
    omega
  · rw [departures_append, refusals_append, hgone, hrefused, hshutdown, h.shutdown]
    simp only [fateCount, List.map_append, List.count_append]
    omega

/-- A move that leaves queue, counters and acknowledged frame alone. -/
theorem Fifo.aside {w w' : World} {before events : List Event} (h : Fifo w before)
    (haside : ∀ e ∈ events, e.IsAside) (hqueue : w'.shared.queue = w.shared.queue)
    (hforwarded : w'.shared.status.messagesForwarded = w.shared.status.messagesForwarded)
    (hdrops : w'.shared.status.drops = w.shared.status.drops)
    (hacknowledged : w'.sender.acknowledged = w.sender.acknowledged) : Fifo w' (before ++ events) := by
  refine h.extend [] [] [] [] ⟨?_, ?_, ?_, ?_⟩ ?_ ?_ ?_ ?_ ?_
  · exact List.filterMap_eq_nil_iff.mpr fun e he => (haside e he).arrival
  · exact List.filterMap_eq_nil_iff.mpr fun e he => (haside e he).departure
  · exact List.filterMap_eq_nil_iff.mpr fun e he => (haside e he).delivery
  · exact List.filterMap_eq_nil_iff.mpr fun e he => (haside e he).refusal
  · simp only [List.append_nil, List.map_nil, List.nil_append, hqueue]
  · simp only [List.append_nil, forwardedFrames, List.filter_nil, List.map_nil, List.nil_append,
      hacknowledged]
  · exact hforwarded
  · rw [hdrops]; rfl
  · rw [hdrops]; rfl

theorem acknowledged_of_ne {t : Sender} (h : t.pc ≠ .sent) : t.acknowledged = [] := if_neg h

/-- A move of the sender between two places other than `sent`. -/
theorem Fifo.relocate {w : World} {sender : Sender} {before events : List Event} (h : Fifo w before)
    (haside : ∀ e ∈ events, e.IsAside) (hfrom : w.sender.pc ≠ .sent) (hto : sender.pc ≠ .sent) :
    Fifo { w with sender } (before ++ events) :=
  h.aside haside rfl rfl rfl (by rw [acknowledged_of_ne hfrom, acknowledged_of_ne hto])

theorem Fifo.move {w w' : World} {before events : List Event} (h : Fifo w before) (hheld : Held w)
    (hmove : Move lib cfg w w' events) : Fifo w' (before ++ events) := by
  have haside : ∀ {e : Event}, e.IsAside → ∀ e' ∈ [e], e'.IsAside := by
    intro e he e' hmem
    rwa [List.mem_singleton.mp hmem]
  cases hmove with
  | quiet shared session pendingFrame sessions internal place =>
      refine h.aside (fun e he => .of_internal (internal e he)) shared.queue shared.messagesForwarded
        shared.drops ?_
      have hsent : w'.sender.pc = .sent ↔ w.sender.pc = .sent := by
        rw [← pc_place_sent, place.fixed_iff .sent rfl, pc_place_sent]
      simp only [Sender.acknowledged, hsent, pendingFrame]
  | @refused listener reason ip payload wallMs hrefusal hip =>
      refine h.extend _ _ _ _ ⟨rfl, rfl, rfl, rfl⟩ (List.append_nil _) (List.append_nil _) rfl ?_ ?_
      · cases reason <;> rfl
      · cases reason <;> rfl
  | accepted ip payload wallMs hrefusal hip =>
      exact h.extend _ _ _ _ ⟨rfl, rfl, rfl, rfl⟩ rfl (List.append_nil _) rfl rfl rfl
  | connectFailed remote hpc =>
      exact h.relocate (haside ⟨rfl, rfl, rfl, rfl⟩) (by simp [hpc]) (by simp)
  | opened remote hpc =>
      refine h.relocate ?_ (by simp [hpc]) (by simp)
      intro e he
      simp only [List.mem_cons, List.not_mem_nil, or_false] at he
      rcases he with rfl | rfl <;> exact ⟨rfl, rfl, rfl, rfl⟩
  | established session hpc hshared =>
      refine h.aside (haside ⟨rfl, rfl, rfl, rfl⟩) hshared.queue hshared.messagesForwarded
        hshared.drops ?_
      rw [acknowledged_of_ne (by simp), acknowledged_of_ne (by simp [hpc])]
  | polled session result hpc hsession hframe hnext =>
      refine h.relocate (haside ⟨rfl, rfl, rfl, rfl⟩) (by simp [hpc]) ?_
      rcases hnext with rfl | ⟨error, rfl⟩ <;> simp
  | oversized i session m rest hpc hsession hqueue hlarge =>
      refine h.extend [] [(m, .oversized)] [] []
        ⟨rfl, rfl, rfl, rfl⟩ ?_ ?_ ?_ ?_ ?_
      · simp [finishFront, hqueue]
      · rw [acknowledged_of_ne (by simp [hpc]), acknowledged_of_ne (by simp)]
        rfl
      · simp [finishFront, hqueue, fateCount]
      · simp [finishFront, hqueue, fateCount]
      · simp [finishFront, hqueue, fateCount]
  | taken i session m rest hpc hsession hqueue hfits =>
      refine h.aside (haside ⟨rfl, rfl, rfl, rfl⟩) rfl rfl rfl ?_
      rw [acknowledged_of_ne (by simp), acknowledged_of_ne (by simp [hpc])]
  | @wrote pc i session bytes hpc hsession hframe hsent hnext =>
      by_cases hwrite : i.write = .ok .sent
      · obtain rfl := hsent.mpr hwrite
        refine h.extend [] [] [bytes] []
          ⟨rfl, rfl, by rw [hwrite]; rfl, rfl⟩ (List.append_nil _) ?_ rfl rfl rfl
        rw [acknowledged_of_ne (by simp [hpc]), Sender.acknowledged, if_pos rfl, hframe]
        rfl
      · have hdelivery : (Event.wrote session bytes i.write i.now i.returned).delivery = none := by
          rcases hresult : i.write with error | _ | _
          · rfl
          · exact absurd hresult hwrite
          · rfl
        exact h.relocate (haside ⟨rfl, rfl, hdelivery, rfl⟩) (by simp [hpc])
          fun hpc => hwrite (hsent.mp hpc)
  | forwarded i hpc =>
      obtain ⟨m, rest, hqueue, hframe⟩ := hheld.sent_head hpc
      rw [hqueue]
      refine h.extend [] [(m, .forwarded)] [] []
        ⟨rfl, rfl, rfl, rfl⟩ ?_ ?_ ?_ ?_ ?_
      · simp [finishFront, hqueue]
      · rw [Sender.acknowledged, if_pos hpc, hframe, acknowledged_of_ne (by simp)]
        rfl
      · simp [finishFront, hqueue, fateCount]
      · simp [finishFront, hqueue, fateCount]
      · simp [finishFront, hqueue, fateCount]
  | closed hnext =>
      refine h.relocate ?_ ?_ ?_
      · intro e he
        obtain ⟨session, -, rfl⟩ := Option.map_eq_some_iff.mp (Option.mem_toList.mp he)
        exact ⟨rfl, rfl, rfl, rfl⟩
      · rcases hnext with ⟨-, hpc, -⟩ | ⟨error, hpc, -, -⟩ <;> simp [hpc]
      · rcases hnext with ⟨rfl, -, -⟩ | ⟨error, -, rfl, -⟩ <;> simp
  | drained hpc =>
      have hnone : ∀ {β : Type} (f : Event → Option β), (∀ m, f (.finished m .shutdown) = none) →
          (w.shared.queue.map fun m => Event.finished m .shutdown).filterMap f = [] := by
        intro β f hf
        simp [List.filterMap_map, hf]
      have hgone : departures (w.shared.queue.map fun m => Event.finished m .shutdown) =
          w.shared.queue.map fun m => (m, Fate.shutdown) := by
        simp [departures, List.filterMap_map, Function.comp_def, Event.departure]
      refine h.extend _ _ _ _ ⟨hnone _ fun _ => rfl, hgone, hnone _ fun _ => rfl, hnone _ fun _ => rfl⟩
        ?_ ?_ ?_ ?_ ?_
      · simp [drain, Function.comp_def]
      · rw [acknowledged_of_ne (by simp [hpc]), acknowledged_of_ne (by simp)]
        simp [forwardedFrames]
      · simp [drain, fateCount, Function.comp_def, List.count_replicate]
      · simp [drain, fateCount, Function.comp_def, List.count_replicate]
      · simp [drain, fateCount, Function.comp_def]

theorem fifo (actions : List Action) :
    Fifo ((relay lib cfg boot).run actions) ((relay lib cfg boot).trace actions) := by
  have hboth := (relay lib cfg boot).induction (P := fun w events => Held w ∧ Fifo w events)
    ⟨Held.start, Fifo.start⟩
    (fun w events action h => ⟨h.1.move (move_next w action), h.2.move h.1 (move_next w action)⟩) actions
  exact hboth.2

/-- The acknowledged frame is that of the head. -/
theorem Held.acknowledged {w : World} (h : Held w) : w.sender.acknowledged =
    if w.sender.pc = .sent then (w.shared.queue.take 1).map fun m => frame m.payload else [] := by
  unfold Sender.acknowledged
  split
  · rename_i hpc
    obtain ⟨m, rest, hqueue, hframe⟩ := h.sent_head hpc
    rw [hframe, hqueue]
    rfl
  · rfl

/-- Only the three places that remove messages change the queue from the sender's side. -/
theorem senderStep_queue (i : SenderInput) {s : State} {t : Sender}
    (hpc : t.pc ≠ .take ∧ t.pc ≠ .sent ∧ t.pc ≠ .drain) :
    (senderStep lib cfg i s t).state.queue = s.queue := by
  obtain ⟨htake, hsent, hdrain⟩ := hpc
  cases hplace : t.pc with
  | take => exact absurd hplace htake
  | sent => exact absurd hplace hsent
  | drain => exact absurd hplace hdrain
  | _ =>
      simp only [senderStep, hplace]
      repeat' split
      all_goals rfl

/-- The queue is a suffix of what was accepted and the rest of it has left, message by message with one
fate each; what the transport reported sent are the frames of the forwarded ones, in order, followed
by the head's frame when its removal is the sender's next step; the counters count the fates; and
nothing the transport does changes the queue. -/
theorem accepted_messages_leave_in_order (lib : External) (cfg : Config) (boot : Boot)
    (actions : List Action) :
    let relay := relay lib cfg boot
    let w := relay.run actions
    let accepted := arrivals (relay.trace actions)
    let gone := departures (relay.trace actions)
    let sent := delivered (relay.trace actions)
    w.shared.queue <:+ accepted ∧
      (∃ some_ : List Message, some_.Sublist accepted ∧ sent = some_.map fun m => frame m.payload) ∧
      accepted = gone.map Prod.fst ++ w.shared.queue ∧
      sent = forwardedFrames gone ++
        (if w.sender.pc = .sent then (w.shared.queue.take 1).map fun m => frame m.payload else []) ∧
      w.shared.status.messagesForwarded = fateCount .forwarded gone ∧
      w.shared.status.drops.oversized =
        (refusals (relay.trace actions)).count .oversized + fateCount .oversized gone ∧
      w.shared.status.drops.shutdown =
        (refusals (relay.trace actions)).count .shutdown + fateCount .shutdown gone ∧
      ∀ i, w.sender.pc ≠ .take ∧ w.sender.pc ≠ .sent ∧ w.sender.pc ≠ .drain →
        (relay.next w (.sender i)).shared.queue = w.shared.queue := by
  intro relay w accepted gone sent
  have h : Fifo w (relay.trace actions) := fifo actions
  have hheld : Held w := held actions
  have hsent := h.delivered
  rw [hheld.acknowledged] at hsent
  refine ⟨⟨gone.map Prod.fst, h.order.symm⟩, ?_, h.order, hsent, h.forwarded, h.oversized, h.shutdown,
    fun i hpc => senderStep_queue i hpc⟩
  refine ⟨(gone.filter fun d => d.2 = .forwarded).map Prod.fst ++
    (if w.sender.pc = .sent then w.shared.queue.take 1 else []), ?_, ?_⟩
  · rw [show accepted = gone.map Prod.fst ++ w.shared.queue from h.order]
    refine (List.filter_sublist.map _).append ?_
    split
    · exact List.take_sublist 1 _
    · exact List.nil_sublist _
  · rw [show sent = _ from hsent, forwardedFrames, List.map_append, List.map_map]
    split <;> rfl

end SyslogDtlsAgent
