import SyslogDtlsAgent.Library.Scan

/-!
# Scanners that return

`Returns x P` is total correctness for scanners: `x` neither slices out of bounds nor runs out of fuel,
and a value it ends with satisfies `P`. There is one rule for a sequence and one for each primitive, with
the bounds a slice needs as its precondition.
-/

namespace Library

namespace Scan

variable {α β γ : Type}

/-- The scanner refuses its input, or its value satisfies `P`. -/
def Returns (x : Scan β) (P : β → Prop) : Prop :=
  match x with
  | .ok b => P b
  | .error stop => stop = .reject

namespace Returns

theorem ok {b : β} {P : β → Prop} (h : P b) : Returns (.ok b) P := h

theorem pure {b : β} {P : β → Prop} (h : P b) : Returns (Pure.pure b) P := h

theorem refused {P : β → Prop} : Returns (.error .reject) P := rfl

theorem mono {x : Scan β} {P Q : β → Prop} (h : Returns x P) (hPQ : ∀ b, P b → Q b) : Returns x Q := by
  cases x with
  | ok b => exact hPQ b h
  | error stop => exact h

theorem bind {x : Scan β} {f : β → Scan γ} {P : β → Prop} {Q : γ → Prop} (hx : Returns x P)
    (hf : ∀ b, P b → Returns (f b) Q) : Returns (x >>= f) Q := by
  cases x with
  | ok b => exact hf b hx
  | error stop => exact hx

theorem ite {condition : Prop} [Decidable condition] {x y : Scan β} {P : β → Prop}
    (hx : condition → Returns x P) (hy : ¬condition → Returns y P) : Returns (if condition then x else y) P := by
  by_cases h : condition
  · rw [if_pos h]
    exact hx h
  · rw [if_neg h]
    exact hy h

/-- The two ways a scanner that returns can end. -/
theorem ends {x : Scan β} {P : β → Prop} (h : Returns x P) : (∃ b, x = .ok b ∧ P b) ∨ x = .error .reject := by
  cases x with
  | ok b => exact .inl ⟨b, rfl, h⟩
  | error stop => exact .inr (congrArg Except.error h)

/-! ### The primitives -/

theorem require {condition : Bool} : Returns (Scan.require condition) fun _ => condition = true := by
  cases condition
  · exact refused
  · exact ok rfl

theorem orReject {o : Option α} : Returns (Scan.orReject o) fun a => o = some a := by
  cases o with
  | none => exact refused
  | some a => exact ok rfl

theorem dropTo {s : List α} {lo : Nat} (h : lo ≤ s.length) :
    Returns (Scan.dropTo s lo) fun t => t.length = s.length - lo := by
  rw [Scan.dropTo, if_pos h]
  exact ok List.length_drop

theorem takeTo {s : List α} {hi : Nat} (h : hi ≤ s.length) :
    Returns (Scan.takeTo s hi) fun t => t.length = hi := by
  rw [Scan.takeTo, if_pos h]
  exact ok (List.length_take_of_le h)

theorem slice {s : List α} {lo hi : Nat} (hlo : lo ≤ hi) (hhi : hi ≤ s.length) :
    Returns (Scan.slice s lo hi) fun t => t.length = hi - lo := by
  rw [Scan.slice, if_pos ⟨hlo, hhi⟩]
  apply ok
  rw [List.length_drop, List.length_take_of_le hhi]

theorem get {s : List α} {i : Nat} (h : i < s.length) : Returns (Scan.get s i) fun a => s[i]? = some a := by
  rw [Scan.get, List.getElem?_eq_getElem h]
  exact ok rfl

/-- What a search finds lies inside the list. -/
theorem position {p : α → Bool} {s : List α} :
    Returns (Scan.orReject (Scan.position p s)) fun n => n < s.length ∧ s[n]?.any p = true := by
  apply orReject.mono
  intro n hn
  obtain ⟨before, hit, after, rfl, rfl, hhit, -⟩ := position_eq_some.mp hn
  constructor
  · rw [List.length_append, List.length_cons]
    omega
  · rw [List.getElem?_append_right (Nat.le_refl _), Nat.sub_self]
    exact hhit

end Returns

end Scan

end Library
