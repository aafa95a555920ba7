import SyslogDtlsAgent.Proof.Web.Service

/-!
# The agent supervises its relays

Forgetting everything but the relays, a step of the agent is a few steps of a supervisor: a relay is born
with a configuration that has passed `Config::validate`, its threads and `Relay::stop` move it, and it is let
go of once it is over. So every relay there ever was is a run of the relay machine.
-/

namespace SyslogDtlsAgent

open Library

variable {lib : External} {codec : Codec}

namespace Launched

/-- A relay `Relay::start` returns. -/
def Born (lib : External) (relay : Launched) : Prop :=
  ∃ config boot, config.validate lib = .ok () ∧ relay = ⟨config, World.start config boot⟩

/-- One step of its threads or of `Relay::stop`. -/
def Steps (lib : External) (relay relay' : Launched) : Prop := ∃ action, relay' = relay.next lib action

/-- A run of the relay machine with settings that have been checked. -/
structure Genuine (lib : External) (relay : Launched) : Prop where
  valid : relay.config.validate lib = .ok ()
  run : ∃ boot actions, relay.world = (SyslogDtlsAgent.relay lib relay.config boot).run actions

theorem Born.genuine {relay : Launched} (h : Born lib relay) : Genuine lib relay := by
  obtain ⟨config, boot, hvalid, rfl⟩ := h
  exact ⟨hvalid, boot, [], rfl⟩

theorem Genuine.step {relay relay' : Launched} (h : Genuine lib relay) (hstep : Steps lib relay relay') :
    Genuine lib relay' := by
  obtain ⟨action, rfl⟩ := hstep
  obtain ⟨boot, actions, hrun⟩ := h.run
  refine ⟨h.valid, boot, actions ++ [action], ?_⟩
  rw [Machine.run_append, next, hrun]
  rfl

/-- Over, as a supervisor sees it. -/
abbrev Over (relay : Launched) : Prop := ¬ relay.Alive

/-- What the relays of a program go through. -/
abbrev Managed (lib : External) : Household Launched → Household Launched → Prop :=
  Supervised (Born lib) (Steps lib) Over

theorem start_born {config : Config} {boot : Except String Boot} {relay : Launched}
    (h : Launched.start lib config boot = .ok relay) : Born lib relay := by
  obtain ⟨b, rfl⟩ := Launched.start_eq_ok h
  refine ⟨config, b, ?_, rfl⟩
  unfold Launched.start at h
  cases hvalid : config.validate lib with
  | error message =>
      rw [hvalid] at h
      cases h
  | ok _ => rfl

/-- Asking a relay to stop, joining it once it has ended, and letting it go. -/
theorem managed_join {relay : Launched} {past : List Launched} (hended : relay.Ended) :
    Managed lib ⟨some relay, past⟩ ⟨none, relay.next lib .join :: past⟩ :=
  .tail (.single (.step ⟨.join, rfl⟩)) (.reap (over_of_join hended))

end Launched

namespace Service

def household (s : Service) : Household Launched := ⟨s.relay, s.past⟩

/-- Every step of the agent is one of its supervisor's, or none of its business. -/
theorem commandStep_managed {s : Service} (h : Consistent s) (i : CommandInput) :
    Launched.Managed lib s.household (s.commandStep lib codec i).1.household := by
  by_cases hstarting : ∃ config, s.pc = .starting config
  · obtain ⟨config, hpc⟩ := hstarting
    have hfits := h.fits
    rw [hpc] at hfits
    have hrelay : s.relay = none := hfits
    simp only [commandStep, hpc]
    split
    · exact .refl
    · rename_i relay hstart
      have hborn := Launched.start_born hstart
      simp only [household, hrelay, Option.toList_none, List.nil_append]
      exact .single (.launch hborn)
  have hturn : CommandTurn lib codec s _ _ := turn_commandStep s i
  generalize (s.commandStep lib codec i).1 = after at hturn
  generalize (s.commandStep lib codec i).2 = events at hturn
  cases hturn with
  | wait | answer | panic | proceed | saved | reap | unstarted | reported => exact .refl
  | absent next hpc hrelay =>
      cases next with
      | none => exact .refl
      | some config => exact .refl
  | asked next relay now hpc hrelay =>
      simp only [household, hrelay]
      exact .single (.step ⟨.stop now, rfl⟩)
  | joined next relay now hpc hrelay hended hafter =>
      subst hafter
      simp only [household, hrelay]
      cases next with
      | none => exact Launched.managed_join hended
      | some config => exact Launched.managed_join hended
  | started config boot hpc => exact absurd ⟨config, hpc⟩ hstarting

theorem next_managed {s : Service} (h : Consistent s) (action : ServiceAction) :
    Launched.Managed lib s.household (s.next lib codec action).household := by
  cases action with
  | command i => exact commandStep_managed h i
  | relay step =>
      obtain ⟨config, path, relay, last, pc, past⟩ := s
      cases relay with
      | none => exact .refl
      | some relay => exact .single (.step ⟨step.action, rfl⟩)
  | past n step =>
      rw [h.next_past]

end Service

/-! ### The last status -/

/-- Without a relay of its own, the agent shows the final status of the one it had last. -/
def Service.Recorded (s : Service) : Prop :=
  ∀ relay ∈ s.past.head?, ∃ now, s.last = snapshot relay.world.shared now

theorem Service.Recorded.turn {s s' : Service} {events : List Returned} (h : s.Recorded) (hs : Consistent s)
    (hturn : CommandTurn lib codec s s' events) : s'.Recorded := by
  have hfits := hs.fits
  cases hturn with
  | wait | answer | panic | proceed | saved | reap | asked | unstarted | reported => exact h
  | absent next hpc hrelay =>
      cases next with
      | none => exact h
      | some config => exact h
  | joined next relay now hpc hrelay hended hafter =>
      subst hafter
      have hlast : ∀ r ∈ (relay.next lib .join :: s.past).head?,
          ∃ at_, snapshot (relay.next lib .join).world.shared now = snapshot r.world.shared at_ := by
        intro r hr
        obtain rfl : relay.next lib .join = r := Option.mem_some_iff.mp hr
        exact ⟨now, rfl⟩
      cases next with
      | none => exact hlast
      | some config => exact hlast
  | started config boot hpc =>
      rw [hpc] at hfits
      have hrelay : s.relay = none := hfits
      intro r hr
      rw [hrelay] at hr
      exact h r hr

end SyslogDtlsAgent
