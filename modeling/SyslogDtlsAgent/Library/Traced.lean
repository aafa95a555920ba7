import Mathlib

/-!
# Calls under a protocol

A fallible computation that calls something outside is its result together with the calls it makes. A
protocol says which call may come next, as a partial step on its states. `Keeps` is the triple for such a
computation, with one postcondition for its value and one for its error, and has a rule for each way such
computations are put together.
-/

namespace Library

universe u v w

/-- A result and the calls made on the way to it. -/
structure Traced (κ : Type u) (ε : Type v) (α : Type w) where
  result : Except ε α
  calls : List κ

/-- Which call is allowed in which state, and the state after it. -/
structure Protocol (σ : Type u) (κ : Type v) where
  step : σ → κ → Option σ

namespace Traced

variable {κ : Type u} {ε : Type v} {α β : Type w}

def ok (a : α) : Traced κ ε α := ⟨.ok a, []⟩

def fail (e : ε) : Traced κ ε α := ⟨.error e, []⟩

def call (c : κ) : Traced κ ε PUnit := ⟨.ok ⟨⟩, [c]⟩

/-- A computation that calls nothing. -/
def lift (x : Except ε α) : Traced κ ε α := ⟨x, []⟩

def bind (x : Traced κ ε α) (f : α → Traced κ ε β) : Traced κ ε β :=
  match x.result with
  | .ok a => ⟨(f a).result, x.calls ++ (f a).calls⟩
  | .error e => ⟨.error e, x.calls⟩

instance : Monad (Traced κ ε) where
  pure := ok
  bind := bind

/-- What is cleaned up when the computation fails. -/
def onError (cleanup : List κ) (x : Traced κ ε α) : Traced κ ε α :=
  match x.result with
  | .ok _ => x
  | .error e => ⟨.error e, x.calls ++ cleanup⟩

@[simp] theorem result_pure (a : α) : (pure a : Traced κ ε α).result = .ok a := rfl

@[simp] theorem result_fail (e : ε) : (fail e : Traced κ ε α).result = .error e := rfl

@[simp] theorem result_lift (x : Except ε α) : (lift x : Traced κ ε α).result = x := rfl

@[simp] theorem result_call (c : κ) : (call c : Traced κ ε PUnit).result = .ok ⟨⟩ := rfl

/-- Without its calls such a computation is an `Except`. -/
@[simp] theorem result_bind (x : Traced κ ε α) (f : α → Traced κ ε β) :
    (x >>= f).result = x.result.bind fun a => (f a).result := by
  show (bind x f).result = _
  unfold bind
  cases x.result <;> rfl

/-- The computation makes calls of one kind only. -/
def Only (P : κ → Prop) (x : Traced κ ε α) : Prop := ∀ c ∈ x.calls, P c

section Only

variable {P : κ → Prop}

theorem only_pure (a : α) : Only P (pure a : Traced κ ε α) := by
  intro c hc
  cases hc

theorem only_fail (e : ε) : Only P (fail e : Traced κ ε α) := by
  intro c hc
  cases hc

theorem only_lift (x : Except ε α) : Only P (lift x) := by
  intro c hc
  cases hc

theorem only_call {c : κ} (h : P c) : Only P (call c : Traced κ ε PUnit) := by
  intro c' hc
  cases List.mem_singleton.mp hc
  exact h

theorem only_bind {x : Traced κ ε α} {f : α → Traced κ ε β} (hx : Only P x) (hf : ∀ a, Only P (f a)) :
    Only P (x >>= f) := by
  intro c hc
  have hc : c ∈ (bind x f).calls := hc
  unfold bind at hc
  split at hc
  · rename_i a _
    rcases List.mem_append.mp hc with hc | hc
    · exact hx c hc
    · exact hf a c hc
  · exact hx c hc

theorem only_onError {cleanup : List κ} {x : Traced κ ε α} (hx : Only P x) (hcleanup : ∀ c ∈ cleanup, P c) :
    Only P (onError cleanup x) := by
  intro c hc
  unfold onError at hc
  split at hc
  · exact hx c hc
  · rcases List.mem_append.mp hc with hc | hc
    · exact hx c hc
    · exact hcleanup c hc

end Only

end Traced

namespace Protocol

variable {σ : Type u} {κ : Type v} (p : Protocol σ κ)

/-- The state after a list of calls, if each of them is allowed. -/
def run (s : σ) : List κ → Option σ
  | [] => some s
  | c :: rest => (p.step s c).bind fun s' => run s' rest

@[simp] theorem run_nil (s : σ) : p.run s [] = some s := rfl

theorem run_append (s : σ) (left right : List κ) :
    p.run s (left ++ right) = (p.run s left).bind fun s' => p.run s' right := by
  induction left generalizing s with
  | nil => rfl
  | cons c left ih =>
      show (p.step s c).bind (fun s' => p.run s' (left ++ right)) =
        ((p.step s c).bind fun s' => p.run s' left).bind fun s' => p.run s' right
      rw [Option.bind_assoc]
      exact congrArg _ (funext ih)

/-- What holds at the start and survives every allowed call holds after every list of allowed calls. -/
theorem run_induction {P : List κ → σ → Prop} {s : σ} (start : P [] s)
    (step : ∀ calls s' c s'', P calls s' → p.step s' c = some s'' → P (calls ++ [c]) s'')
    {calls : List κ} {s' : σ} (hrun : p.run s calls = some s') : P calls s' := by
  induction calls using List.reverseRecOn generalizing s' with
  | nil => exact Option.some.inj hrun ▸ start
  | append_singleton calls c ih =>
      rw [run_append, Option.bind_eq_some_iff] at hrun
      obtain ⟨before, hbefore, hlast⟩ := hrun
      obtain ⟨after, hstep, hafter⟩ := Option.bind_eq_some_iff.mp hlast
      exact Option.some.inj hafter ▸ step calls before c after (ih hbefore) hstep

variable {ε : Type w} {α β : Type w}

/-- From a state in `P` every call is allowed; a value comes with a state in `Q`, an error with one in `E`. -/
def Keeps (P : σ → Prop) (x : Traced κ ε α) (Q : α → σ → Prop) (E : ε → σ → Prop) : Prop :=
  ∀ s, P s → ∃ s', p.run s x.calls = some s' ∧
    (∀ a, x.result = .ok a → Q a s') ∧ ∀ e, x.result = .error e → E e s'

variable {p} {P P' : σ → Prop} {Q Q' : α → σ → Prop} {E E' : ε → σ → Prop}

theorem keeps_ok {a : α} (h : ∀ s, P s → Q a s) : p.Keeps P (pure a) Q E := by
  intro s hs
  refine ⟨s, rfl, fun b hb => ?_, nofun⟩
  cases hb
  exact h s hs

theorem keeps_fail {e : ε} (h : ∀ s, P s → E e s) : p.Keeps P (.fail e) Q E := by
  intro s hs
  refine ⟨s, rfl, nofun, fun e' he => ?_⟩
  cases he
  exact h s hs

theorem keeps_lift {x : Except ε α} (hvalue : ∀ a s, x = .ok a → P s → Q a s)
    (herror : ∀ e s, x = .error e → P s → E e s) : p.Keeps P (.lift x) Q E :=
  fun s hs => ⟨s, rfl, fun a ha => hvalue a s ha hs, fun e he => herror e s he hs⟩

theorem keeps_call {c : κ} {Q : PUnit → σ → Prop} (h : ∀ s, P s → ∃ s', p.step s c = some s' ∧ Q ⟨⟩ s') :
    p.Keeps P (.call c) Q E := by
  intro s hs
  obtain ⟨s', hstep, hpost⟩ := h s hs
  refine ⟨s', ?_, fun _ _ => hpost, nofun⟩
  show (p.step s c).bind some = some s'
  rw [hstep]
  rfl

theorem keeps_bind {x : Traced κ ε α} {f : α → Traced κ ε β} {R : α → σ → Prop} {Q : β → σ → Prop}
    (hx : p.Keeps P x R E) (hf : ∀ a, p.Keeps (R a) (f a) Q E) : p.Keeps P (x >>= f) Q E := by
  intro s hs
  obtain ⟨s', hrun, hvalue, herror⟩ := hx s hs
  show ∃ s', p.run s (Traced.bind x f).calls = some s' ∧ _
  unfold Traced.bind
  cases hresult : x.result with
  | ok a =>
      obtain ⟨s'', hrest, hpost⟩ := hf a s' (hvalue a hresult)
      refine ⟨s'', ?_, ?_⟩
      · rw [run_append, hrun]
        exact hrest
      · simpa only [Bind.bind, Traced.bind, hresult] using hpost
  | error e =>
      refine ⟨s', hrun, ?_⟩
      have hpost := herror e hresult
      simp only [Bind.bind, Traced.bind, hresult, Except.error.injEq, reduceCtorEq, false_implies,
        implies_true, true_and]
      intro e' he
      exact he ▸ hpost

theorem keeps_mono {x : Traced κ ε α} (h : p.Keeps P x Q E) (hP : ∀ s, P' s → P s)
    (hQ : ∀ a s, Q a s → Q' a s) (hE : ∀ e s, E e s → E' e s) : p.Keeps P' x Q' E' := by
  intro s hs
  obtain ⟨s', hrun, hvalue, herror⟩ := h s (hP s hs)
  exact ⟨s', hrun, fun a ha => hQ a s' (hvalue a ha), fun e he => hE e s' (herror e he)⟩

theorem keeps_onError {x : Traced κ ε α} {cleanup : List κ} (h : p.Keeps P x Q E)
    (hclean : ∀ e s, E e s → ∃ s', p.run s cleanup = some s' ∧ E' e s') :
    p.Keeps P (.onError cleanup x) Q E' := by
  intro s hs
  obtain ⟨s', hrun, hvalue, herror⟩ := h s hs
  unfold Traced.onError
  cases hresult : x.result with
  | ok a =>
      refine ⟨s', hrun, hvalue, fun e he => ?_⟩
      simp only [hresult, reduceCtorEq] at he
  | error e =>
      obtain ⟨s'', hcleaned, hpost⟩ := hclean e s' (herror e hresult)
      refine ⟨s'', ?_, nofun, fun e' he => ?_⟩
      · rw [run_append, hrun]
        exact hcleaned
      · cases he
        exact hpost

end Protocol

end Library
