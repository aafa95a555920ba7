import SyslogDtlsAgent.Proof.Relay.Moves

/-!
# The frame in hand

The frame the sender is writing is a copy outside the lock. `Held` ties it to the shared state: while
the sender is in its loop, a pending frame is the frame of the head of the queue, and it belongs to a
stored session. It also says which places have a session and which have no pending frame, and that
the sender only leaves its loop after a stop was requested.
-/

namespace SyslogDtlsAgent

open Library

variable {lib : External} {cfg : Config} {boot : Boot}

/-- What a place says about the sender's session and pending frame. -/
def Place.Fits (session : Option Nat) (pendingFrame : Option Bytes) : Place → Prop
  | .top => pendingFrame.isSome = true → session.isSome = true
  | .offline => session = none ∧ pendingFrame = none
  | .opening _ => session = none ∧ pendingFrame = none
  | .online => session.isSome = true
  | .fetching => session.isSome = true ∧ pendingFrame = none
  | .sent => session.isSome = true ∧ pendingFrame.isSome = true
  | .closing => True
  | .draining => session = none
  | .done => session = none
  | .lost => True

structure Held (w : World) : Prop where
  fits : w.sender.pc.place.Fits w.sender.session w.sender.pendingFrame
  head : ∀ bytes, w.sender.pendingFrame = some bytes → w.sender.pc.place ≠ .done →
    ∃ m rest, w.shared.queue = m :: rest ∧ bytes = frame m.payload
  leaving : w.sender.pc.place.isLeaving = true → w.shared.stopAt.isSome = true
  done : w.sender.pc.place = .done → w.shared.queue = []

theorem Held.start : Held (World.start cfg boot) := by
  refine ⟨?_, ?_, ?_, ?_⟩ <;>
    simp [World.start, Sender.start, Pc.place, Place.Fits, Place.isLeaving]

theorem Held.sent_head {w : World} (h : Held w) (hpc : w.sender.pc = .sent) :
    ∃ m rest, w.shared.queue = m :: rest ∧ w.sender.pendingFrame = some (frame m.payload) := by
  have hfits := h.fits
  rw [hpc] at hfits
  obtain ⟨bytes, hbytes⟩ := Option.isSome_iff_exists.mp hfits.2
  obtain ⟨m, rest, hqueue, rfl⟩ := h.head bytes hbytes (by simp [hpc, Pc.place])
  exact ⟨m, rest, hqueue, hbytes⟩

theorem Wander.fits {s : State} {t : Sender} {place : Place} (h : Wander s t place)
    (hfits : t.pc.place.Fits t.session t.pendingFrame) : place.Fits t.session t.pendingFrame := by
  cases h with
  | stay h => exact h ▸ hfits
  | offline h hsession =>
      rw [h] at hfits
      refine ⟨hsession, ?_⟩
      cases hframe : t.pendingFrame with
      | none => rfl
      | some bytes =>
          have := hfits (by rw [hframe]; rfl)
          rw [hsession] at this
          cases this
  | online h =>
      rcases h with ⟨_, hsession⟩ | h
      · exact hsession
      · rw [h] at hfits
        exact hfits.1
  | top h =>
      rcases h with h | h <;> rw [h] at hfits
      · intro hframe
        rw [hfits.2] at hframe
        cases hframe
      · exact fun _ => hfits
  | leave => trivial
  | lost => trivial

theorem Wander.leaving {s : State} {t : Sender} {place : Place} (h : Wander s t place)
    (hplace : place.isLeaving = true) : t.pc.place.isLeaving = true ∨ s.stopAt.isSome = true := by
  cases h with
  | stay h => exact .inl (h ▸ hplace)
  | leave _ hstop => exact .inr hstop
  | offline | online | top | lost => cases hplace

/-- Inside the loop and without a pending frame there is nothing to tie. -/
theorem Held.of_no_frame {w : World}
    (hfits : w.sender.pc.place.Fits w.sender.session w.sender.pendingFrame)
    (hframe : w.sender.pendingFrame = none) (hto : w.sender.pc.place.isLeaving = false) : Held w := by
  refine ⟨hfits, fun bytes hbytes _ => ?_, fun hleaving => ?_, fun hdone => ?_⟩
  · rw [hframe] at hbytes
    cases hbytes
  · rw [hto] at hleaving
    cases hleaving
  · rw [hdone] at hto
    cases hto

/-- A move of the sender alone that stays in the loop and keeps the pending frame. -/
theorem Held.relocate {w : World} {sender : Sender} (h : Held w)
    (hfits : sender.pc.place.Fits sender.session sender.pendingFrame)
    (hframe : sender.pendingFrame = w.sender.pendingFrame)
    (hfrom : w.sender.pc.place ≠ .done) (hto : sender.pc.place.isLeaving = false) :
    Held { w with sender } := by
  refine ⟨hfits, fun bytes hbytes _ => ?_, fun hleaving => ?_, fun hdone => ?_⟩
  · exact h.head bytes (hframe ▸ hbytes) hfrom
  · rw [hto] at hleaving
    cases hleaving
  · rw [hdone] at hto
    cases hto

theorem Held.move {w w' : World} {events : List Event} (h : Held w) (hmove : Move lib cfg w w' events) :
    Held w' := by
  have hfits := h.fits
  cases hmove with
  | quiet shared session pendingFrame sessions internal place =>
      refine ⟨?_, ?_, ?_, ?_⟩
      · rw [session, pendingFrame]
        exact place.fits h.fits
      · intro bytes hbytes hdone
        rw [shared.queue]
        exact h.head bytes (pendingFrame ▸ hbytes) fun hplace => hdone ((place.fixed_iff .done rfl).mpr hplace)
      · intro hleaving
        rcases place.leaving hleaving with hleft | hstop
        · exact shared.stopAt (h.leaving hleft)
        · exact shared.stopAt hstop
      · intro hdone
        rw [shared.queue]
        exact h.done ((place.fixed_iff .done rfl).mp hdone)
  | refused ip payload wallMs hrefusal hip => exact ⟨h.fits, h.head, h.leaving, h.done⟩
  | accepted ip payload wallMs hrefusal hip =>
      have hstop : w.shared.stopAt = none := (refusal_eq_none.mp hrefusal).2.1
      refine ⟨h.fits, ?_, h.leaving, ?_⟩
      · intro bytes hbytes hdone
        obtain ⟨m, rest, hqueue, hframe⟩ := h.head bytes hbytes hdone
        refine ⟨m, rest ++ [⟨payload, ip⟩], ?_, hframe⟩
        simp only [State.push, State.countReceived, hqueue, List.cons_append]
      · intro hdone
        have hsome := h.leaving (by simp only [hdone, Place.isLeaving])
        rw [hstop] at hsome
        cases hsome
  | connectFailed remote hpc =>
      rw [hpc] at hfits
      exact h.relocate hfits rfl (by simp [hpc, Pc.place]) rfl
  | opened remote hpc =>
      rw [hpc] at hfits
      exact h.relocate hfits rfl (by simp [hpc, Pc.place]) rfl
  | established session hpc hshared =>
      exact .of_no_frame rfl rfl rfl
  | polled session result hpc hsession hframe hnext =>
      have hsome : w.sender.session.isSome = true := by rw [hsession]; rfl
      rcases hnext with rfl | ⟨error, rfl⟩
      · exact h.relocate ⟨hsome, hframe⟩ rfl (by simp [hpc, Pc.place]) rfl
      · exact h.relocate hsome rfl (by simp [hpc, Pc.place]) rfl
  | oversized i session m rest hpc hsession hqueue hlarge =>
      rw [hpc] at hfits
      exact .of_no_frame (fun _ => hfits.1) hfits.2 rfl
  | taken i session m rest hpc hsession hqueue hfits' =>
      refine ⟨by rw [hsession]; rfl, fun bytes hbytes _ => ?_, nofun, nofun⟩
      cases hbytes
      exact ⟨m, rest, hqueue, rfl⟩
  | wrote i session bytes hpc hsession hframe hsent hnext =>
      have hsome : w.sender.session.isSome = true := by rw [hsession]; rfl
      rcases hnext with rfl | rfl | ⟨error, rfl⟩
      · exact h.relocate ⟨hsome, by rw [hframe]; rfl⟩ rfl (by simp [hpc, Pc.place]) rfl
      · exact h.relocate hsome rfl (by simp [hpc, Pc.place]) rfl
      · exact h.relocate hsome rfl (by simp [hpc, Pc.place]) rfl
  | forwarded i hpc =>
      rw [hpc] at hfits
      exact .of_no_frame hfits.1 rfl rfl
  | closed hnext =>
      rcases hnext with ⟨rfl, hpc, rfl⟩ | ⟨error, -, rfl, rfl⟩
      · refine ⟨rfl, fun bytes hbytes _ => h.head bytes hbytes (by simp [hpc, Pc.place]),
          fun _ => h.leaving (by rw [hpc]; rfl), nofun⟩
      · exact .of_no_frame ⟨rfl, rfl⟩ rfl rfl
  | drained hpc =>
      rw [hpc] at hfits
      exact ⟨hfits, fun bytes _ hdone => absurd rfl hdone, fun _ => h.leaving (by rw [hpc]; rfl),
        fun _ => rfl⟩

/-- `Held` is true throughout every run. -/
theorem held (actions : List Action) : Held ((relay lib cfg boot).run actions) :=
  (relay lib cfg boot).invariant Held.start (fun w action h => h.move (move_next w action)) actions

end SyslogDtlsAgent
