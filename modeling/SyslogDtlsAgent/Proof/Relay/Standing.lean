import SyslogDtlsAgent.Proof.Relay.Shutdown

/-!
# The life of an association, as a status tells it

An operator sees five texts in `dtls_status`. `Standing` is what they stand for, with the ways from one to the
next; the relay takes no other, in any interleaving. What the rest of the status says about the association
is true of the session the sender holds.
-/

namespace SyslogDtlsAgent

open Library

variable {lib : External} {cfg : Config} {boot : Boot}

inductive Standing where
  | resolving
  | handshaking
  | established
  | retrying
  | stopped
  deriving DecidableEq

def Standing.text : Standing → String
  | .resolving => "resolving"
  | .handshaking => "handshaking"
  | .established => "established"
  | .retrying => "retrying"
  | .stopped => "stopped"

/-- An association is never established without a handshake, nor given up without a retry, and a relay that
has stopped is not used again. -/
inductive Standing.Step : Standing → Standing → Prop where
  | dialled : Step .resolving .handshaking
  | connected : Step .handshaking .established
  | failed {p : Standing} (h : p = .resolving ∨ p = .handshaking ∨ p = .established) : Step p .retrying
  | again : Step .retrying .resolving
  | stopped {p : Standing} (h : p ≠ .stopped) : Step p .stopped

/-- The standings in which the sender can be in a place. -/
def Sender.Shows (t : Sender) (p : Standing) : Prop :=
  match t.pc with
  | .top => (t.session.isSome = true ∧ p = .established) ∨ (t.session = none ∧ (p = .resolving ∨ p = .retrying))
  | .resolving => p = .resolving ∨ p = .retrying
  | .lookup | .awaitCheck _ | .awaitRecv _ | .dial _ => p = .resolving
  | .connecting _ | .established _ => p = .handshaking
  | .connectFailed _ | .retry _ => p = .resolving ∨ p = .handshaking
  | .backoff | .failedPause => p = .retrying
  | .polling | .fetch | .take | .writing | .sent | .pace | .idle => p = .established
  | .failed _ | .failedStatus _ => p = .established
  | .closing =>
      (t.session.isSome = true ∧ p = .established) ∨
        (t.session = none ∧ (p = .resolving ∨ p = .handshaking ∨ p = .retrying))
  | .drain => p ≠ .stopped
  | .done => p = .stopped
  | .panicked => False

/-- Where a step goes from standing `p`, and whether it counts as a failed attempt. -/
structure Standing.Goes (p q : Standing) (s s' : State) (t' : Sender) : Prop where
  text : s'.status.dtlsStatus = q.text
  shows : t'.Shows q
  way : q = p ∨ Standing.Step p q
  retryAttempts : s'.status.retryAttempts = s.status.retryAttempts + if p ≠ q ∧ q = .retrying then 1 else 0

theorem Standing.Goes.stay {p : Standing} {s s' : State} {t' : Sender} (htext : s.status.dtlsStatus = p.text)
    (hsame : s'.status.dtlsStatus = s.status.dtlsStatus ∧ s'.status.retryAttempts = s.status.retryAttempts)
    (hshows : t'.Shows p) : ∃ q, Standing.Goes p q s s' t' := by
  refine ⟨p, hsame.1.trans htext, hshows, .inl rfl, ?_⟩
  rw [if_neg (fun h => h.1 rfl)]
  exact hsame.2

theorem finishFront_standing (s : State) (forwarded : Bool) (now : Instant) (wallMs : Nat) :
    (finishFront s forwarded now wallMs).status.dtlsStatus = s.status.dtlsStatus ∧
      (finishFront s forwarded now wallMs).status.retryAttempts = s.status.retryAttempts := by
  unfold finishFront
  cases s.queue <;> cases forwarded <;> exact ⟨rfl, rfl⟩

theorem Sound.goes {w : World} (h : Sound w) {p : Standing} (htext : w.shared.status.dtlsStatus = p.text)
    (hshows : w.sender.Shows p) (i : SenderInput) :
    ∃ q, Standing.Goes p q w.shared (senderStep lib cfg i w.shared w.sender).state
      (senderStep lib cfg i w.shared w.sender).sender := by
  have hfits := h.held.fits
  have hsupplied := h.supplied
  unfold Sender.Shows at hshows
  cases hpc : w.sender.pc with
  | top =>
      rw [hpc] at hshows
      simp only [senderStep, hpc]
      split
      · refine Standing.Goes.stay htext ⟨rfl, rfl⟩ ?_
        rcases hshows with hheld | ⟨hnone, hstanding | hstanding⟩
        · exact .inl hheld
        · exact .inr ⟨hnone, .inl hstanding⟩
        · exact .inr ⟨hnone, .inr (.inr hstanding)⟩
      · split
        · rename_i hsession
          have hsession : w.sender.session = none := Option.isNone_iff_eq_none.mp hsession
          refine Standing.Goes.stay htext ⟨rfl, rfl⟩ ?_
          rcases hshows with ⟨hsome, -⟩ | ⟨-, hstanding⟩
          · rw [hsession] at hsome
            cases hsome
          · exact hstanding
        · rename_i hsession
          refine Standing.Goes.stay htext ⟨rfl, rfl⟩ ?_
          rcases hshows with ⟨-, hstanding⟩ | ⟨hnone, -⟩
          · exact hstanding
          · rw [hnone] at hsession
            exact absurd rfl hsession
  | resolving =>
      rw [hpc] at hshows
      simp only [senderStep, hpc]
      rcases hshows with rfl | rfl
      · exact ⟨.resolving, rfl, rfl, .inl rfl, rfl⟩
      · exact ⟨.resolving, rfl, rfl, .inr .again, rfl⟩
  | lookup =>
      rw [hpc] at hshows
      simp only [senderStep, hpc]
      split
      · exact Standing.Goes.stay htext ⟨rfl, rfl⟩ hshows
      · split
        · exact Standing.Goes.stay htext ⟨rfl, rfl⟩ (.inl hshows)
        · exact Standing.Goes.stay htext ⟨rfl, rfl⟩ (.inl hshows)
        · exact Standing.Goes.stay htext ⟨rfl, rfl⟩ hshows
  | awaitCheck until_ =>
      rw [hpc] at hshows
      simp only [senderStep, hpc]
      split
      · exact Standing.Goes.stay htext ⟨rfl, rfl⟩ (.inl hshows)
      · exact Standing.Goes.stay htext ⟨rfl, rfl⟩ hshows
  | awaitRecv until_ =>
      rw [hpc] at hshows hsupplied
      obtain ⟨worker, hworker⟩ := Option.isSome_iff_exists.mp hsupplied
      simp only [senderStep, hpc, hworker]
      split
      · exact Standing.Goes.stay htext ⟨rfl, rfl⟩ (.inl hshows)
      · exact Standing.Goes.stay htext ⟨rfl, rfl⟩ hshows
      · exact Standing.Goes.stay htext ⟨rfl, rfl⟩ (.inl hshows)
      · split
        · exact Standing.Goes.stay htext ⟨rfl, rfl⟩ (.inl hshows)
        · exact Standing.Goes.stay htext ⟨rfl, rfl⟩ hshows
      · exact Standing.Goes.stay htext ⟨rfl, rfl⟩ (.inl hshows)
  | dial addresses =>
      rw [hpc] at hshows hsupplied
      have hlt : w.sender.attempts % addresses.length < addresses.length :=
        Nat.mod_lt _ (List.length_pos_iff.mpr hsupplied)
      simp only [senderStep, hpc, List.getElem?_eq_getElem hlt]
      subst hshows
      exact ⟨.handshaking, rfl, rfl, .inr .dialled, rfl⟩
  | connecting remote =>
      rw [hpc] at hshows
      simp only [senderStep, hpc]
      split
      · exact Standing.Goes.stay htext ⟨rfl, rfl⟩ hshows
      · exact Standing.Goes.stay htext ⟨rfl, rfl⟩ (.inr hshows)
  | established session =>
      rw [hpc] at hshows
      simp only [senderStep, hpc]
      subst hshows
      exact ⟨.established, rfl, rfl, .inr .connected, rfl⟩
  | connectFailed error =>
      rw [hpc] at hshows hfits
      have hsession : w.sender.session = none := hfits.1
      simp only [senderStep, hpc]
      split
      · refine Standing.Goes.stay htext ⟨rfl, rfl⟩ (.inr ⟨hsession, ?_⟩)
        rcases hshows with hstanding | hstanding
        · exact .inl hstanding
        · exact .inr (.inl hstanding)
      · exact Standing.Goes.stay htext ⟨rfl, rfl⟩ hshows
  | retry error =>
      rw [hpc] at hshows
      simp only [senderStep, hpc]
      rcases hshows with rfl | rfl
      · exact ⟨.retrying, rfl, rfl, .inr (.failed (.inl rfl)), rfl⟩
      · exact ⟨.retrying, rfl, rfl, .inr (.failed (.inr (.inl rfl))), rfl⟩
  | backoff | failedPause =>
      rw [hpc] at hshows hfits
      have hsession : w.sender.session = none := hfits.1
      simp only [senderStep, hpc]
      exact Standing.Goes.stay htext ⟨rfl, rfl⟩ (.inr ⟨hsession, .inr hshows⟩)
  | polling =>
      rw [hpc] at hshows hfits
      obtain ⟨session, hsession⟩ := Option.isSome_iff_exists.mp hfits
      simp only [senderStep, hpc, hsession]
      repeat' split
      all_goals exact Standing.Goes.stay htext ⟨rfl, rfl⟩ hshows
  | fetch =>
      rw [hpc] at hshows
      simp only [senderStep, hpc]
      split <;> exact Standing.Goes.stay htext ⟨rfl, rfl⟩ hshows
  | take =>
      rw [hpc] at hshows hfits
      obtain ⟨session, hsession⟩ := Option.isSome_iff_exists.mp hfits.1
      simp only [senderStep, hpc, hsession]
      split
      · rename_i hnone
        cases hnone
      · exact Standing.Goes.stay htext ⟨rfl, rfl⟩ hshows
      · split
        · exact Standing.Goes.stay htext (finishFront_standing w.shared false i.now i.wallMs) (.inl ⟨rfl, hshows⟩)
        · exact Standing.Goes.stay htext ⟨rfl, rfl⟩ hshows
  | writing =>
      rw [hpc] at hshows hfits
      obtain ⟨session, hsession⟩ := Option.isSome_iff_exists.mp hfits
      simp only [senderStep, hpc, hsession]
      repeat' split
      all_goals first | exact Standing.Goes.stay htext ⟨rfl, rfl⟩ hshows | (rename_i hnone; cases hnone)
  | sent =>
      rw [hpc] at hshows
      simp only [senderStep, hpc]
      exact Standing.Goes.stay htext (finishFront_standing w.shared true i.now i.wallMs) hshows
  | pace =>
      rw [hpc] at hshows
      simp only [senderStep, hpc]
      exact Standing.Goes.stay htext ⟨rfl, rfl⟩ hshows
  | idle =>
      rw [hpc] at hshows hfits
      simp only [senderStep, hpc]
      exact Standing.Goes.stay htext ⟨rfl, rfl⟩ (.inl ⟨hfits, hshows⟩)
  | failed error =>
      rw [hpc] at hshows hfits
      obtain ⟨session, hsession⟩ := Option.isSome_iff_exists.mp hfits
      simp only [senderStep, hpc, hsession]
      exact Standing.Goes.stay htext ⟨rfl, rfl⟩ hshows
  | failedStatus error =>
      rw [hpc] at hshows
      simp only [senderStep, hpc]
      subst hshows
      exact ⟨.retrying, rfl, rfl, .inr (.failed (.inr (.inr rfl))), rfl⟩
  | closing =>
      rw [hpc] at hshows
      simp only [senderStep, hpc]
      refine Standing.Goes.stay htext ⟨rfl, rfl⟩ ?_
      rcases hshows with ⟨-, rfl⟩ | ⟨-, rfl | rfl | rfl⟩ <;> exact fun h => by cases h
  | drain =>
      rw [hpc] at hshows
      simp only [senderStep, hpc]
      refine ⟨.stopped, rfl, rfl, .inr (.stopped hshows), ?_⟩
      rw [if_neg (fun h => by cases h.2)]
      rfl
  | done =>
      rw [hpc] at hshows
      simp only [senderStep, hpc]
      exact Standing.Goes.stay htext ⟨rfl, rfl⟩ hshows
  | panicked =>
      rw [hpc] at hshows
      exact hshows.elim

/-- The listener and `stop` leave the standing alone. -/
theorem next_standing (w : World) {action : Action} (hother : ∀ i, action ≠ .sender i)
    (hjoined : w.sender.pc = .done → w.shared.status.dtlsStatus = "stopped") (hsound : Sound w) :
    let w' := World.next lib cfg w action
    w'.shared.status.dtlsStatus = w.shared.status.dtlsStatus ∧
      w'.shared.status.retryAttempts = w.shared.status.retryAttempts := by
  cases action with
  | sender i => exact absurd rfl (hother i)
  | stop now =>
      show (stopRequest cfg now w.shared).status.dtlsStatus = _ ∧ (stopRequest cfg now w.shared).status.retryAttempts = _
      unfold stopRequest
      split <;> exact ⟨rfl, rfl⟩
  | join =>
      simp only [World.next]
      split
      · rename_i hended
        rcases hended.2 with hdone | hpanicked
        · exact ⟨(hjoined hdone).symm, rfl⟩
        · have hsupplied := hsound.supplied
          rw [hpanicked] at hsupplied
          exact hsupplied.elim
      · exact ⟨rfl, rfl⟩
  | listener i =>
      simp only [World.next]
      cases hpc : w.listener with
      | check | exited => exact ⟨rfl, rfl⟩
      | receiving =>
          simp only [listenStep]
          cases i.recv with
          | again | failed => exact ⟨rfl, rfl⟩
          | datagram peer bytes =>
              simp only [receive]
              split <;> exact ⟨rfl, rfl⟩

/-- The standing a status shows is one in which the sender can be where it is. -/
def World.InStanding (w : World) (p : Standing) : Prop := w.shared.status.dtlsStatus = p.text ∧ w.sender.Shows p

theorem Sound.standing_next {w : World} (h : Sound w) {p : Standing} (hstanding : w.InStanding p) (action : Action) :
    ∃ q, Standing.Goes p q w.shared (World.next lib cfg w action).shared (World.next lib cfg w action).sender := by
  obtain ⟨htext, hshows⟩ := hstanding
  by_cases hsender : ∃ i, action = .sender i
  · obtain ⟨i, rfl⟩ := hsender
    exact h.goes htext hshows i
  · have hother : ∀ i, action ≠ .sender i := fun i heq => hsender ⟨i, heq⟩
    have hjoined : w.sender.pc = .done → w.shared.status.dtlsStatus = "stopped" := by
      intro hpc
      rw [Sender.Shows, hpc] at hshows
      rw [htext, hshows]
      rfl
    refine Standing.Goes.stay htext (next_standing w hother hjoined h) ?_
    rw [World.next_sender_eq w hother]
    exact hshows

theorem standings (actions : List Action) : ∃ p, ((relay lib cfg boot).run actions).InStanding p := by
  have hboth := (relay lib cfg boot).invariant (P := fun w => Sound w ∧ ∃ p, w.InStanding p)
    ⟨Sound.start, .resolving, rfl, .inr ⟨rfl, .inl rfl⟩⟩
    (fun w action h => by
      obtain ⟨hsound, p, hstanding⟩ := h
      obtain ⟨q, hgoes⟩ := hsound.standing_next hstanding action
      exact ⟨hsound.next action, q, hgoes.text, hgoes.shows⟩) actions
  exact hboth.2

/-- While a session is held the standing is `established`, and it is left as soon as the sender gets to say so. -/
theorem Sound.established_iff {w : World} (h : Sound w) {p : Standing} (hshows : w.sender.Shows p) :
    (w.sender.session.isSome = true → p = .established) ∧
      (p = .established → w.sender.session.isSome = true ∨ w.sender.pc = .drain ∨
        ∃ error, w.sender.pc = .failedStatus error) := by
  have hfits := h.held.fits
  unfold Sender.Shows at hshows
  cases hpc : w.sender.pc with
  | top | closing =>
      rw [hpc] at hshows
      rcases hshows with ⟨hsession, hstanding⟩ | ⟨hsession, hstanding⟩
      · exact ⟨fun _ => hstanding, fun _ => .inl hsession⟩
      · rw [hsession]
        refine ⟨(fun h => by cases h), fun heq => ?_⟩
        simp [heq] at hstanding
  | resolving | lookup | awaitCheck | awaitRecv | dial | connecting | connectFailed | retry | backoff | failedPause
    | established =>
      rw [hpc] at hshows hfits
      rw [hfits.1]
      refine ⟨(fun h => by cases h), fun heq => ?_⟩
      simp [heq] at hshows
  | polling | writing | pace | idle | failed =>
      rw [hpc] at hshows hfits
      exact ⟨fun _ => hshows, fun _ => .inl hfits⟩
  | fetch | take | sent =>
      rw [hpc] at hshows hfits
      exact ⟨fun _ => hshows, fun _ => .inl hfits.1⟩
  | failedStatus error =>
      rw [hpc] at hshows
      exact ⟨fun _ => hshows, fun _ => .inr (.inr ⟨error, rfl⟩)⟩
  | drain =>
      rw [hpc] at hfits
      rw [show w.sender.session = none from hfits]
      exact ⟨(fun h => by cases h), fun _ => .inr (.inl rfl)⟩
  | done =>
      rw [hpc] at hfits hshows
      rw [show w.sender.session = none from hfits]
      exact ⟨(fun h => by cases h), (fun heq => by rw [heq] at hshows; cases hshows)⟩
  | panicked =>
      rw [hpc] at hshows
      exact hshows.elim

/-- The relay is shown as stopped exactly when the sender has finished. -/
theorem stopped_iff {t : Sender} {p : Standing} (hshows : t.Shows p) : p = .stopped ↔ t.pc = .done := by
  unfold Sender.Shows at hshows
  constructor
  · rintro rfl
    cases hpc : t.pc with
    | done => rfl
    | _ =>
        rw [hpc] at hshows
        simp at hshows
  · intro hpc
    rw [hpc] at hshows
    exact hshows

end SyslogDtlsAgent
