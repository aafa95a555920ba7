import SyslogDtlsAgent.Library.Machine

/-!
# Provenance

What a system grants (a session, a ticket, a capability) should go back to an event that issued it,
with nothing since that took it away. `Issued` says so of a history of events; `Machine.provenance`
gets it for every run from a fact about one action. `Machine.kept` is the way back: what was granted stays
as long as nothing takes it away.
-/

namespace Library

variable {ε κ : Type*} {Issues Ends : ε → κ → Prop}

/-- The key was issued by an event of the history, and no later event ended it. -/
def Issued (Issues Ends : ε → κ → Prop) (events : List ε) (key : κ) : Prop :=
  ∃ earlier issue later, events = earlier ++ issue :: later ∧ Issues issue key ∧
    ∀ e ∈ later, ¬Ends e key

namespace Issued

theorem now {e : ε} {key : κ} (events : List ε) (h : Issues e key) : Issued Issues Ends (events ++ [e]) key :=
  ⟨events, e, [], rfl, h, by simp⟩

theorem keep {events more : List ε} {key : κ} (h : Issued Issues Ends events key)
    (hmore : ∀ e ∈ more, ¬Ends e key) : Issued Issues Ends (events ++ more) key := by
  obtain ⟨earlier, issue, later, rfl, hissue, hlater⟩ := h
  refine ⟨earlier, issue, later ++ more, by simp, hissue, fun e he => ?_⟩
  rcases List.mem_append.mp he with he | he
  · exact hlater e he
  · exact hmore e he

/-- The position of the event that issued the key. -/
theorem index {events : List ε} {key : κ} (h : Issued Issues Ends events key) :
    ∃ (i : Nat) (issue : ε), events[i]? = some issue ∧ Issues issue key ∧
      ∀ j e, i < j → events[j]? = some e → ¬Ends e key := by
  obtain ⟨earlier, issue, later, rfl, hissue, hlater⟩ := h
  refine ⟨earlier.length, issue, by simp, hissue, fun j e hj he => ?_⟩
  rw [List.getElem?_append_right (by omega)] at he
  obtain ⟨n, hn⟩ : ∃ n, j - earlier.length = n + 1 := ⟨j - earlier.length - 1, by omega⟩
  rw [hn, List.getElem?_cons_succ] at he
  exact hlater e (List.mem_of_getElem? he)

end Issued

variable {σ α : Type*}

/-- If nothing is live at the start, and whatever is live after an action was issued by it or was live
before and has not been ended by it, then in every run whatever is live was issued and not ended
since. -/
theorem Machine.provenance (M : Machine σ α ε) (Live : σ → κ → Prop)
    (start : ∀ key, ¬Live M.init key)
    (step : ∀ s a key, Live (M.next s a) key →
      (∃ before e, M.emit s a = before ++ [e] ∧ Issues e key) ∨
        (Live s key ∧ ∀ e ∈ M.emit s a, ¬Ends e key))
    (actions : List α) (key : κ) (hlive : Live (M.run actions) key) :
    Issued Issues Ends (M.trace actions) key := by
  revert key
  refine M.induction (P := fun s events => ∀ key, Live s key → Issued Issues Ends events key)
    (fun key hlive => absurd hlive (start key)) (fun s events a ih key hlive => ?_) actions
  rcases step s a key hlive with ⟨before, e, hemit, hissue⟩ | ⟨hbefore, hends⟩
  · rw [hemit, ← List.append_assoc]
    exact .now _ hissue
  · exact (ih key hbefore).keep hends

/-- What an action keeps if its events spare it is kept by every run whose events all do. -/
theorem Machine.kept (M : Machine σ α ε) {P : σ → Prop} {Q : ε → Prop}
    (step : ∀ s a, P s → (∀ e ∈ M.emit s a, Q e) → P (M.next s a)) {s : σ} (hs : P s)
    (actions : List α) (hspares : ∀ e ∈ M.traceFrom s actions, Q e) : P (M.runFrom s actions) := by
  induction actions generalizing s with
  | nil => exact hs
  | cons a rest ih =>
      obtain ⟨hnow, hrest⟩ := List.forall_mem_append.mp hspares
      exact ih (step s a hs hnow) hrest

end Library
