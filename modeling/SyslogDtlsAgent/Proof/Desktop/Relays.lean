import SyslogDtlsAgent.Desktop.App
import SyslogDtlsAgent.Proof.Web.Supervision

/-!
# The desktop application supervises its relays

The same supervisor as for the agent of the command line, reached by other commands: here a `start` finds out
that the old relay is over before it lets it go, and the exit handler stops a relay that is not.
-/

namespace SyslogDtlsAgent

open Library

variable {lib : External}

def Desktop.household (s : Desktop) : Household Launched := ⟨s.relay, s.past⟩

/-- Every relay the application ever had. -/
def Desktop.relays (s : Desktop) : List Launched := s.household.all

/-- What the place of the holder of the lock says about the relay. -/
def DesktopPc.Fits (relay : Option Launched) : DesktopPc → Prop
  | .stopping (.start _) => ∀ r ∈ relay, Unasked r.world ∧ ¬ r.Alive
  | .joining (.start _) => ∀ r ∈ relay, ¬ r.Alive
  | .joining _ => True
  | .starting _ => relay = none
  | _ => ∀ r ∈ relay, Unasked r.world

theorem DesktopPc.Fits.relay {relay : Option Launched} {pc : DesktopPc} (h : pc.Fits relay)
    (step : ThreadStep) : pc.Fits (relay.map fun r => r.next lib step.action) := by
  have hmap {P : Launched → Prop} (hnext : ∀ r, P r → P (r.next lib step.action))
      (hall : ∀ r ∈ relay, P r) : ∀ r ∈ relay.map (fun r => r.next lib step.action), P r := by
    intro r hr
    obtain ⟨before, hbefore, rfl⟩ := Option.mem_map.mp hr
    exact hnext before (hall before hbefore)
  have hunasked : ∀ r : Launched, Unasked r.world → Unasked (r.next lib step.action).world :=
    fun r hr => Launched.unasked_next hr step
  have hover : ∀ r : Launched, ¬ r.Alive → ¬ (r.next lib step.action).Alive :=
    fun r hr halive => hr (Launched.alive_of_next halive)
  cases pc with
  | free | checking | started => exact hmap hunasked h
  | stopping call =>
      cases call with
      | start config => exact hmap (fun r hr => ⟨hunasked r hr.1, hover r hr.2⟩) h
      | status | stop | exit => exact hmap hunasked h
  | joining call =>
      cases call with
      | start config => exact hmap hover h
      | status | stop | exit => trivial
  | starting config =>
      cases h
      rfl

namespace Desktop

structure Orderly (s : Desktop) : Prop where
  past : ∀ r ∈ s.past, ¬ r.Alive
  last : s.last.running = false
  fits : s.pc.Fits s.relay

variable {s : Desktop}

/-- Without a relay every command can go on from `Relay::stop`. -/
theorem Orderly.stopped (hpast : ∀ r ∈ s.past, ¬ r.Alive) (hlast : s.last.running = false) (hrelay : s.relay = none)
    (call : DesktopCall) : Orderly (s.stopped call).1 ∧ (s.stopped call).1.household = s.household := by
  cases call with
  | start config => exact ⟨⟨hpast, hlast, hrelay⟩, rfl⟩
  | status | stop | exit => exact ⟨⟨hpast, hlast, no_relay hrelay⟩, rfl⟩

theorem Orderly.reap (h : Orderly s) (call : DesktopCall) {relay : Launched} (hover : ¬ relay.Alive)
    (now : Instant) :
    (∀ r ∈ (s.reap call relay now).past, ¬ r.Alive) ∧ (s.reap call relay now).last.running = false := by
  refine ⟨List.forall_mem_cons.mpr ⟨hover, h.past⟩, ?_⟩
  cases call with
  | exit => exact h.last
  | status | start | stop => exact (Launched.not_alive.mp hover).2

theorem Orderly.free {s' : Desktop} (h : Orderly s) (hunasked : ∀ r ∈ s.relay, Unasked r.world)
    (hs' : s' = { s with pc := .free }) : Orderly s' ∧ Launched.Managed lib s.household s'.household := by
  subst hs'
  exact ⟨⟨h.past, h.last, hunasked⟩, .refl⟩

theorem Orderly.step (h : Orderly s) (i : DesktopInput) :
    Orderly (s.step lib i).1 ∧ Launched.Managed lib s.household (s.step lib i).1.household := by
  have hfits := h.fits
  cases hpc : s.pc with
  | free =>
      rw [hpc] at hfits
      simp only [Desktop.step, hpc]
      split
      · exact h.free hfits rfl
      · exact ⟨⟨h.past, h.last, hfits⟩, .refl⟩
      · rename_i hstatus hstart
        generalize i.call = call at hstart
        cases call with
        | start config => exact (hstart config rfl).elim
        | status | stop | exit => exact ⟨⟨h.past, h.last, hfits⟩, .refl⟩
  | checking config =>
      rw [hpc] at hfits
      simp only [Desktop.step, hpc]
      split
      · exact h.free hfits rfl
      · rename_i hrunning
        refine ⟨⟨h.past, h.last, fun r hr => ⟨hfits r hr, ?_⟩⟩, .refl⟩
        have hrelay : s.relay = some r := hr
        rw [hrelay, Option.any_some] at hrunning
        exact Launched.over_of_unasked (hfits r hr) (Bool.eq_false_iff.mpr hrunning)
  | stopping call =>
      rw [hpc] at hfits
      simp only [Desktop.step, hpc]
      split
      · rename_i hrelay
        obtain ⟨horderly, hhousehold⟩ := Orderly.stopped h.past h.last hrelay call
        rw [hhousehold]
        exact ⟨horderly, .refl⟩
      · rename_i relay hrelay
        refine ⟨⟨h.past, h.last, ?_⟩, ?_⟩
        · cases call with
          | status | stop | exit => trivial
          | start config =>
              intro r hr halive
              obtain rfl : relay.next lib (.stop i.now) = r := Option.mem_some_iff.mp hr
              exact (hfits relay hrelay).2 (Launched.alive_of_stop halive)
        · simp only [household, hrelay]
          exact .single (.step ⟨.stop i.now, rfl⟩)
  | joining call =>
      simp only [Desktop.step, hpc]
      split
      · exact ⟨h, .refl⟩
      · rename_i relay hrelay
        split
        · rename_i hended
          have hover : ¬ (relay.next lib .join).Alive := Launched.over_of_join hended
          obtain ⟨hpast, hlast⟩ := h.reap call hover i.now
          obtain ⟨horderly, hhousehold⟩ := Orderly.stopped hpast hlast rfl call
          refine ⟨horderly, ?_⟩
          rw [hhousehold]
          simp only [household, hrelay]
          exact Launched.managed_join hended
        · exact ⟨h, .refl⟩
  | starting config =>
      rw [hpc] at hfits
      have hrelay : s.relay = none := hfits
      simp only [Desktop.step, hpc]
      split
      · exact h.free (no_relay hrelay) rfl
      · rename_i relay hstarted
        simp only [bind_eq_ok] at hstarted
        obtain ⟨directory, -, -, -, hstart⟩ := hstarted
        obtain ⟨boot, rfl⟩ := Launched.start_eq_ok hstart
        simp only [household, hrelay, Option.toList_none, List.nil_append]
        refine ⟨⟨h.past, h.last, fun r hr => ?_⟩, .single (.launch (Launched.start_born hstart))⟩
        rw [← Option.mem_some_iff.mp hr]
        exact Unasked.start
  | started config =>
      rw [hpc] at hfits
      simp only [Desktop.step, hpc]
      exact h.free hfits rfl

theorem Orderly.next (h : Orderly s) (action : DesktopAction) :
    Orderly (s.next lib action) ∧ Launched.Managed lib s.household (s.next lib action).household := by
  cases action with
  | call i => exact h.step i
  | relay step =>
      refine ⟨⟨h.past, h.last, h.fits.relay step⟩, ?_⟩
      obtain ⟨relay, last, pc, past⟩ := s
      cases relay with
      | none => exact .refl
      | some relay => exact .single (.step ⟨step.action, rfl⟩)
  | past n step =>
      have hsame : s.next lib (.past n step) = s := by
        rw [Desktop.next, Launched.modify_past h.past]
      rw [hsame]
      exact ⟨h, .refl⟩

/-- The application lets a `stop` and the exit return only without a relay. -/
theorem stopped_ends {call : DesktopCall} {returned : DesktopReturned}
    (hreturned : returned ∈ (s.stopped call).2) (hrelay : s.relay = none) :
    (s.stopped call).1.relay = none ∧
      ∀ status, returned.result = .ok (some status) → status = (s.stopped call).1.last := by
  cases call with
  | start config => cases hreturned
  | exit =>
      rw [List.mem_singleton.mp hreturned]
      exact ⟨hrelay, fun status h => by cases h⟩
  | status | stop =>
      rw [List.mem_singleton.mp hreturned]
      refine ⟨hrelay, fun status h => ?_⟩
      cases h
      rfl

theorem step_ends {i : DesktopInput} {returned : DesktopReturned} (hreturned : returned ∈ (s.step lib i).2)
    (hcall : returned.call = .stop ∨ returned.call = .exit) :
    (s.step lib i).1.relay = none ∧
      ∀ status, returned.result = .ok (some status) → status = (s.step lib i).1.last := by
  have hother {config : Config} {result : Except String (Option Status)} {P : Prop}
      (h : returned ∈ [(⟨.start config, result⟩ : DesktopReturned)]) : P := by
    rw [List.mem_singleton.mp h] at hcall
    rcases hcall with hcall | hcall <;> cases hcall
  cases hpc : s.pc with
  | free =>
      simp only [Desktop.step, hpc] at hreturned
      split at hreturned
      · rw [List.mem_singleton.mp hreturned] at hcall
        rcases hcall with hcall | hcall <;> cases hcall
      · cases hreturned
      · cases hreturned
  | checking config =>
      simp only [Desktop.step, hpc] at hreturned
      split at hreturned
      · exact hother hreturned
      · cases hreturned
  | stopping call =>
      simp only [Desktop.step, hpc] at hreturned ⊢
      split at hreturned
      · rename_i hrelay
        exact stopped_ends hreturned hrelay
      · cases hreturned
  | joining call =>
      simp only [Desktop.step, hpc] at hreturned ⊢
      split at hreturned
      · cases hreturned
      · rename_i relay hrelay
        split at hreturned
        · rename_i hended
          simp only [if_pos hended]
          exact stopped_ends hreturned rfl
        · cases hreturned
  | starting config =>
      simp only [Desktop.step, hpc] at hreturned
      split at hreturned
      · exact hother hreturned
      · cases hreturned
  | started config =>
      simp only [Desktop.step, hpc] at hreturned
      exact hother hreturned

end Desktop

theorem desktop_supervises_its_relays (lib : External) (actions : List DesktopAction) :
    let M := desktop lib
    let s := M.run actions
    (∀ relay ∈ s.relays, relay.Genuine lib) ∧ s.relays.countP (fun relay => relay.Alive) ≤ 1 ∧
      (∀ more, s.past <:+ (M.runFrom s more).past) ∧
      (∀ config, s.pc = .stopping (.start config) ∨ s.pc = .joining (.start config) →
        ∀ relay ∈ s.relays, ¬ relay.Alive) ∧
      ∀ action, ∀ returned ∈ M.emit s action, returned.call = .stop ∨ returned.call = .exit →
        (∀ relay ∈ (M.next s action).relays, ¬ relay.Alive) ∧
          ∀ status, returned.result = .ok (some status) → status.running = false := by
  intro M s
  have hboth := M.invariant
    (P := fun s => s.Orderly ∧ Launched.Managed lib ⟨none, []⟩ s.household)
    ⟨⟨fun r hr => absurd hr List.not_mem_nil, rfl, no_relay rfl⟩, .refl⟩
    (fun s action h => by
      obtain ⟨horderly, hmanaged⟩ := h.1.next action
      exact ⟨horderly, h.2.trans hmanaged⟩) actions
  obtain ⟨horderly, hmanaged⟩ := hboth
  have hnone : ∀ relay ∈ (Household.mk none [] : Household Launched).all, relay.Genuine lib :=
    fun r hr => absurd hr List.not_mem_nil
  refine ⟨?_, ?_, fun more => ?_, fun config hpc => ?_, fun action returned hreturned hcall => ?_⟩
  · exact hmanaged.all (fun _ => Launched.Born.genuine) (fun _ _ h hstep => h.step hstep) hnone
  · change s.household.all.countP (fun relay => relay.Alive) ≤ 1
    have hone := hmanaged.one_left fun r hr => absurd hr List.not_mem_nil
    simpa only [Launched.Over, not_not] using hone
  · have hmore := M.invariant_from (P := fun s' => s'.Orderly ∧ s.past <:+ s'.past)
      (fun s' action h => by
        obtain ⟨hnext, hstep⟩ := h.1.next action
        exact ⟨hnext, h.2.trans (hstep.past h.1.past).1⟩) ⟨horderly, List.suffix_refl _⟩ more
    exact hmore.2
  · have hfits := horderly.fits
    have hover : ∀ r ∈ s.relay, ¬ r.Alive := by
      rcases hpc with hpc | hpc
      · rw [hpc] at hfits
        exact fun r hr => (hfits r hr).2
      · rw [hpc] at hfits
        exact hfits
    intro r hr
    rcases Household.mem_all.mp hr with hown | hgone
    · exact hover r hown
    · exact horderly.past r hgone
  · cases action with
    | relay | past => cases hreturned
    | call i =>
        obtain ⟨hrelay, hstatus⟩ := Desktop.step_ends hreturned hcall
        have hnext : (s.step lib i).1.Orderly := (horderly.step i).1
        refine ⟨fun r hr => ?_, fun status hresult => ?_⟩
        · rcases Household.mem_all.mp hr with hown | hgone
          · cases hrelay.symm.trans hown
          · exact hnext.past r hgone
        · rw [hstatus status hresult]
          exact hnext.last

end SyslogDtlsAgent
