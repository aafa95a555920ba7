import Mathlib

/-!
# Machines that emit events

A machine takes one action after another and emits events while it does. Every interleaving of
several parties is one list of actions, so a statement about all interleavings quantifies over that
list. `Machine.induction_from` is the only induction over runs: an invariant may mention the actions taken
and the events emitted so far, and has to survive one action. An `Observer` reduces a claim about two
runs to what a single action does to an observation.
-/

namespace Library

universe u v w

/-- A deterministic machine with states `σ`, actions `α` and emitted events `ε`. -/
structure Machine (σ : Type u) (α : Type v) (ε : Type w) where
  init : σ
  next : σ → α → σ
  emit : σ → α → List ε

namespace Machine

variable {σ : Type u} {α : Type v} {ε : Type w} (M : Machine σ α ε)

/-- The state reached from `s` by a list of actions. -/
def runFrom (s : σ) : List α → σ
  | [] => s
  | a :: rest => runFrom (M.next s a) rest

/-- The events emitted from `s` along a list of actions. -/
def traceFrom (s : σ) : List α → List ε
  | [] => []
  | a :: rest => M.emit s a ++ traceFrom (M.next s a) rest

def run (actions : List α) : σ := M.runFrom M.init actions

def trace (actions : List α) : List ε := M.traceFrom M.init actions

@[simp] theorem runFrom_nil (s : σ) : M.runFrom s [] = s := rfl

@[simp] theorem runFrom_cons (s : σ) (a : α) (rest : List α) :
    M.runFrom s (a :: rest) = M.runFrom (M.next s a) rest := rfl

@[simp] theorem traceFrom_nil (s : σ) : M.traceFrom s [] = [] := rfl

@[simp] theorem traceFrom_cons (s : σ) (a : α) (rest : List α) :
    M.traceFrom s (a :: rest) = M.emit s a ++ M.traceFrom (M.next s a) rest := rfl

theorem runFrom_append (s : σ) (xs ys : List α) :
    M.runFrom s (xs ++ ys) = M.runFrom (M.runFrom s xs) ys := by
  induction xs generalizing s with
  | nil => rfl
  | cons a xs ih => exact ih (M.next s a)

theorem traceFrom_append (s : σ) (xs ys : List α) :
    M.traceFrom s (xs ++ ys) = M.traceFrom s xs ++ M.traceFrom (M.runFrom s xs) ys := by
  induction xs generalizing s with
  | nil => rfl
  | cons a xs ih => simp only [List.cons_append, traceFrom_cons, runFrom_cons, ih, List.append_assoc]

theorem run_append (xs ys : List α) : M.run (xs ++ ys) = M.runFrom (M.run xs) ys :=
  M.runFrom_append M.init xs ys

theorem trace_append (xs ys : List α) : M.trace (xs ++ ys) = M.trace xs ++ M.traceFrom (M.run xs) ys :=
  M.traceFrom_append M.init xs ys

/-- Machines that take the same steps reach the same states, whatever they emit. -/
theorem runFrom_congr {δ : Type*} {N : Machine σ α δ} (hnext : N.next = M.next) (s : σ) (actions : List α) :
    N.runFrom s actions = M.runFrom s actions := by
  induction actions generalizing s with
  | nil => rfl
  | cons a rest ih => rw [runFrom_cons, runFrom_cons, hnext, ih]

/-- A part of the events of a run is what the machine emits that emits that part. -/
theorem traceFrom_filterMap {δ : Type*} {N : Machine σ α δ} {hear : ε → Option δ} (hnext : N.next = M.next)
    (hemit : ∀ s a, (M.emit s a).filterMap hear = N.emit s a) (s : σ) (actions : List α) :
    (M.traceFrom s actions).filterMap hear = N.traceFrom s actions := by
  induction actions generalizing s with
  | nil => rfl
  | cons a rest ih => rw [traceFrom_cons, traceFrom_cons, List.filterMap_append, hemit, ih, hnext]

/-- Where every action emits one event, the events of a run are in step with its actions. -/
theorem traceFrom_in_step {f : σ → α → ε} (hemit : ∀ s a, M.emit s a = [f s a]) (s : σ)
    (actions : List α) (j : Nat) :
    (M.traceFrom s actions)[j]? = actions[j]?.map (f (M.runFrom s (actions.take j))) ∧
      (M.traceFrom s actions).take j = M.traceFrom s (actions.take j) := by
  induction actions generalizing s j with
  | nil => simp
  | cons a rest ih =>
      rw [traceFrom_cons, hemit, List.singleton_append]
      cases j with
      | zero => simp
      | succ j =>
          obtain ⟨hget, htake⟩ := ih (M.next s a) j
          rw [List.getElem?_cons_succ, List.getElem?_cons_succ, List.take_succ_cons, List.take_succ_cons,
            runFrom_cons, traceFrom_cons, hemit, hget, htake]
          exact ⟨rfl, rfl⟩

/-- What holds at `s` and survives one action, together with the actions taken and the events emitted
since, holds after every run from `s`. -/
theorem induction_from {P : List α → σ → List ε → Prop} {s : σ} (start : P [] s [])
    (step : ∀ actions s' events a, P actions s' events →
      P (actions ++ [a]) (M.next s' a) (events ++ M.emit s' a))
    (actions : List α) : P actions (M.runFrom s actions) (M.traceFrom s actions) := by
  induction actions using List.reverseRecOn with
  | nil => exact start
  | append_singleton actions a ih =>
      rw [runFrom_append, traceFrom_append, runFrom_cons, traceFrom_cons, runFrom_nil, traceFrom_nil,
        List.append_nil]
      exact step _ _ _ a ih

/-- The same for the runs of the machine. -/
theorem induction_on {P : List α → σ → List ε → Prop} (start : P [] M.init [])
    (step : ∀ actions s events a, P actions s events →
      P (actions ++ [a]) (M.next s a) (events ++ M.emit s a))
    (actions : List α) : P actions (M.run actions) (M.trace actions) :=
  M.induction_from start step actions

/-- The same for an invariant of the state and the events. -/
theorem induction {P : σ → List ε → Prop} (start : P M.init [])
    (step : ∀ s events a, P s events → P (M.next s a) (events ++ M.emit s a))
    (actions : List α) : P (M.run actions) (M.trace actions) :=
  M.induction_on (P := fun _ s events => P s events) start (fun _ => step) actions

/-- The same for an invariant of the state alone. -/
theorem invariant {P : σ → Prop} (start : P M.init) (step : ∀ s a, P s → P (M.next s a))
    (actions : List α) : P (M.run actions) :=
  M.induction (P := fun s _ => P s) start (fun s _ a => step s a) actions

/-- An invariant survives a run from any state that satisfies it. -/
theorem invariant_from {P : σ → Prop} (step : ∀ s a, P s → P (M.next s a))
    {s : σ} (start : P s) (actions : List α) : P (M.runFrom s actions) :=
  M.induction_from (P := fun _ s _ => P s) start (fun _ s _ a => step s a) actions

/-- What every action ensures of the events it emits, each with the events before it, holds all along the
trace. -/
theorem each_event {P : σ → List ε → Prop} {Q : List ε → ε → Prop} (start : P M.init [])
    (step : ∀ s events a, P s events → P (M.next s a) (events ++ M.emit s a) ∧
      ∀ before e after, M.emit s a = before ++ e :: after → Q (events ++ before) e)
    (actions : List α) {before after : List ε} {e : ε} (hsplit : M.trace actions = before ++ e :: after) :
    Q before e := by
  have hboth := M.induction
    (P := fun s events => P s events ∧ ∀ before e after, events = before ++ e :: after → Q before e)
    ⟨start, fun before e after h => by simp at h⟩
    (fun s events a h => by
      obtain ⟨hnext, hemit⟩ := step s events a h.1
      refine ⟨hnext, fun before e after hsplit => ?_⟩
      rcases List.append_eq_append_iff.mp hsplit with ⟨middle, rfl, hafter⟩ | ⟨middle, rfl, hafter⟩
      · exact hemit middle e after hafter
      · cases middle with
        | nil =>
            have hfirst := hemit [] e after hafter.symm
            simpa only [List.append_nil] using hfirst
        | cons first rest =>
            obtain ⟨rfl, -⟩ := List.cons.inj hafter
            exact h.2 before e rest rfl)
    actions
  exact hboth.2 before e after hsplit

/-! ### Ranks -/

/-- A rank that no action raises and that certain actions lower is lowered once for each of those, as long
as the run goes on as `Due` says. -/
theorem rank_le {Due : σ → List α → Prop} (rank : σ → Nat) {lowers : α → Bool}
    (step : ∀ s a rest, Due s (a :: rest) →
      Due (M.next s a) rest ∧ rank (M.next s a) ≤ rank s - (lowers a).toNat)
    {s : σ} {actions : List α} (hdue : Due s actions) :
    rank (M.runFrom s actions) ≤ rank s - actions.countP lowers := by
  induction actions generalizing s with
  | nil => exact Nat.le_refl _
  | cons a rest ih =>
      obtain ⟨hrest, hstep⟩ := step s a rest hdue
      have hlater := ih hrest
      rw [runFrom_cons, List.countP_cons]
      cases hlowers : lowers a with
      | true =>
          rw [hlowers, Bool.toNat_true] at hstep
          rw [if_pos rfl]
          omega
      | false =>
          rw [hlowers, Bool.toNat_false] at hstep
          rw [if_neg Bool.false_ne_true]
          omega

/-- A worker whose every action brings it closer to the end of the first item of its list, or to that end, gets
through the list in `bound` actions for each item, in order, whatever is added to the list meanwhile. -/
theorem worklist_done {D : σ → List α → Prop} {β γ : Type*} (todo : σ → List β) (mark : β → γ)
    {hear : ε → Option γ} (rank : σ → Nat) (bound : Nat) {works : α → Bool}
    (alive : ∀ s actions, D s actions → 0 < rank s ∧ rank s ≤ bound)
    (step : ∀ s a rest, D s (a :: rest) → D (M.next s a) rest ∧ ∀ x xs, todo s = x :: xs →
      ((M.emit s a).filterMap hear = [] ∧ todo s <+: todo (M.next s a) ∧
        rank (M.next s a) + (works a).toNat ≤ rank s) ∨
      ((M.emit s a).filterMap hear = [mark x] ∧ xs <+: todo (M.next s a)))
    {s : σ} {actions : List α} (hdue : D s actions)
    (henough : bound * (todo s).length ≤ actions.countP works) :
    (todo s).map mark <+: (M.traceFrom s actions).filterMap hear := by
  -- the list grows while the worker works: what is proved is about the part `items` that was there before
  have hpart : ∀ actions s items, D s actions → items <+: todo s →
      (∀ x xs, items = x :: xs → bound * xs.length + rank s ≤ actions.countP works) →
      items.map mark <+: (M.traceFrom s actions).filterMap hear := by
    intro actions
    induction actions with
    | nil =>
        intro s items hdue _ hleft
        cases items with
        | nil => exact List.nil_prefix
        | cons x xs =>
            have hrank := (alive s [] hdue).1
            have hcount := hleft x xs rfl
            rw [List.countP_nil] at hcount
            omega
    | cons a rest ih =>
        intro s items hdue hitems hleft
        cases items with
        | nil => exact List.nil_prefix
        | cons x xs =>
            obtain ⟨tail, htodo⟩ := hitems
            obtain ⟨hrest, hnext⟩ := step s a rest hdue
            have hcount := hleft x xs rfl
            have hsplit : (a :: rest).countP works ≤ rest.countP works + (works a).toNat := by
              rw [List.countP_cons]
              cases works a <;> simp
            rw [traceFrom_cons, List.filterMap_append]
            rcases hnext x (xs ++ tail) htodo.symm with ⟨hsilent, hgrown, hcloser⟩ | ⟨hheard, hgone⟩
            · rw [hsilent, List.nil_append]
              apply ih _ (x :: xs) hrest (List.IsPrefix.trans ⟨tail, htodo⟩ hgrown)
              intro y ys hitems
              obtain ⟨rfl, rfl⟩ := List.cons.inj hitems
              omega
            · rw [hheard, List.map_cons, List.singleton_append]
              apply List.cons_prefix_cons.mpr
              refine ⟨rfl, ih _ xs hrest ((List.prefix_append xs tail).trans hgone) ?_⟩
              intro y ys hitems
              have hrank := (alive s _ hdue).1
              have hrank' := (alive _ _ hrest).2
              have hone : (works a).toNat ≤ 1 := Bool.toNat_le (works a)
              subst hitems
              rw [List.length_cons, Nat.mul_add, Nat.mul_one] at hcount
              omega
  apply hpart actions s (todo s) hdue (List.prefix_refl _)
  intro x xs htodo
  rw [htodo, List.length_cons, Nat.mul_add, Nat.mul_one] at henough
  have hrank := (alive s actions hdue).2
  omega

/-! ### Two runs -/

section Unwinding

variable {ω β γ : Type*} (visible : σ → α → Option β)

/-- The part of a run that an observer is entitled to see: the visible image of every action that
has one. -/
def visiblesFrom (s : σ) : List α → List β
  | [] => []
  | a :: rest => (visible s a).toList ++ visiblesFrom (M.next s a) rest

def visibles (actions : List α) : List β := M.visiblesFrom visible M.init actions

/-- A machine whose every action does what its visible image, if it has one, does in another machine, and is
heard to do the same, refines that machine: its runs are runs of the other one along the visible images. -/
theorem run_refines {τ δ γ : Type*} (N : Machine τ β δ) (abstract : σ → τ) {hear : ε → Option γ}
    {hear' : δ → Option γ} (start : abstract M.init = N.init)
    (step : ∀ s a, abstract (M.next s a) = (visible s a).elim (abstract s) (N.next (abstract s)) ∧
      (M.emit s a).filterMap hear =
        (visible s a).elim [] fun b => (N.emit (abstract s) b).filterMap hear')
    (actions : List α) :
    abstract (M.run actions) = N.run (M.visibles visible actions) ∧
      (M.trace actions).filterMap hear = (N.trace (M.visibles visible actions)).filterMap hear' := by
  have hfrom : ∀ s, abstract (M.runFrom s actions) = N.runFrom (abstract s) (M.visiblesFrom visible s actions) ∧
      (M.traceFrom s actions).filterMap hear =
        (N.traceFrom (abstract s) (M.visiblesFrom visible s actions)).filterMap hear' := by
    induction actions with
    | nil => exact fun _ => ⟨rfl, rfl⟩
    | cons a rest ih =>
        intro s
        obtain ⟨hnext, hemit⟩ := step s a
        obtain ⟨hrun, htrace⟩ := ih (M.next s a)
        rw [runFrom_cons, traceFrom_cons, List.filterMap_append, hrun, htrace, hnext, hemit, visiblesFrom]
        cases visible s a with
        | none => exact ⟨rfl, rfl⟩
        | some b =>
            simp only [Option.elim_some, Option.toList_some, List.singleton_append, runFrom_cons, traceFrom_cons,
              List.filterMap_append, and_self]
  have hrun := hfrom M.init
  rw [start] at hrun
  exact hrun

/-- An observer of the state and of some of the events, who follows a run from its visible images
alone: an invisible action changes and emits nothing observable, and what a visible one changes and
emits is a function of the observation and the image. -/
structure Observer (ω γ : Type*) where
  observe : σ → ω
  hear : ε → Option γ
  replay : ω → β → ω
  respond : ω → β → List γ
  silent : ∀ s a, visible s a = none → observe (M.next s a) = observe s ∧ (M.emit s a).filterMap hear = []
  follows : ∀ s a b, visible s a = some b →
    observe (M.next s a) = replay (observe s) b ∧ (M.emit s a).filterMap hear = respond (observe s) b

variable {M visible} (o : M.Observer visible ω γ)

/-- What the observer hears along a list of visible images. -/
def Observer.responses (observed : ω) : List β → List γ
  | [] => []
  | b :: rest => o.respond observed b ++ responses (o.replay observed b) rest

theorem Observer.follows_from (s : σ) (actions : List α) :
    o.observe (M.runFrom s actions) = (M.visiblesFrom visible s actions).foldl o.replay (o.observe s) ∧
      (M.traceFrom s actions).filterMap o.hear =
        o.responses (o.observe s) (M.visiblesFrom visible s actions) := by
  induction actions generalizing s with
  | nil => exact ⟨rfl, rfl⟩
  | cons a rest ih =>
      obtain ⟨hstate, hevents⟩ := ih (M.next s a)
      rw [runFrom_cons, traceFrom_cons, List.filterMap_append, hstate, hevents]
      cases hvisible : visible s a with
      | none =>
          obtain ⟨hsame, hquiet⟩ := o.silent s a hvisible
          simp only [visiblesFrom, hvisible, Option.toList_none, List.nil_append, hsame, hquiet,
            and_self]
      | some b =>
          obtain ⟨hnext, hheard⟩ := o.follows s a b hvisible
          simp only [visiblesFrom, hvisible, Option.toList_some, List.singleton_append,
            List.foldl_cons, responses, hnext, hheard, and_self]

/-- Two runs with the same visible part look the same to the observer. -/
theorem Observer.unwinding {left right : List α}
    (hsame : M.visibles visible left = M.visibles visible right) :
    o.observe (M.run left) = o.observe (M.run right) ∧
      (M.trace left).filterMap o.hear = (M.trace right).filterMap o.hear := by
  obtain ⟨hleft, hleftEvents⟩ := o.follows_from M.init left
  obtain ⟨hright, hrightEvents⟩ := o.follows_from M.init right
  unfold visibles at hsame
  rw [hsame] at hleft hleftEvents
  exact ⟨hleft.trans hright.symm, hleftEvents.trans hrightEvents.symm⟩

end Unwinding

end Machine

end Library
