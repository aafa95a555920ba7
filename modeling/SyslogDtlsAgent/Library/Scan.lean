import Mathlib

/-!
# Scanners over slices

A scanner walks over a list by slicing it at computed positions, as hand-written parsers do. It can
stop early in three ways: it refuses the input, it slices out of bounds, or its loop does not end.
Keeping the three apart is what lets one definition carry both what a parser accepts and that it
never fails on any input. The lemmas read a slice or a search off an append, so a proof never
computes with positions.
-/

namespace Library

/-- How a scanner stops without a value. -/
inductive Stop where
  /-- The input is refused. -/
  | reject
  /-- A slice or an index was out of bounds. -/
  | panic
  /-- A loop used up its fuel. -/
  | diverge
  deriving DecidableEq

abbrev Scan (β : Type) := Except Stop β

/-- A sequence of fallible steps succeeds when each of them does. -/
theorem bind_eq_ok {ε β γ : Type} {x : Except ε β} {f : β → Except ε γ} {c : γ} :
    (x >>= f) = .ok c ↔ ∃ b, x = .ok b ∧ f b = .ok c := by
  cases x <;> simp only [bind, Except.bind, reduceCtorEq, false_and, exists_false, Except.ok.injEq,
    exists_eq_left']

theorem exists_of_isOk {ε β : Type} {x : Except ε β} (h : x.isOk = true) : ∃ b, x = .ok b := by
  cases x with
  | error e => cases h
  | ok b => exact ⟨b, rfl⟩

namespace Scan

variable {α β γ : Type}

/-- `&s[lo..]`. -/
def dropTo (s : List α) (lo : Nat) : Scan (List α) :=
  if lo ≤ s.length then .ok (s.drop lo) else .error .panic

/-- `&s[..hi]`. -/
def takeTo (s : List α) (hi : Nat) : Scan (List α) :=
  if hi ≤ s.length then .ok (s.take hi) else .error .panic

/-- `&s[lo..hi]`. -/
def slice (s : List α) (lo hi : Nat) : Scan (List α) :=
  if lo ≤ hi ∧ hi ≤ s.length then .ok ((s.take hi).drop lo) else .error .panic

/-- `s[i]`. -/
def get (s : List α) (i : Nat) : Scan α :=
  match s[i]? with
  | some a => .ok a
  | none => .error .panic

/-- `return false` unless the condition holds. -/
def require (condition : Bool) : Scan Unit :=
  if condition then .ok () else .error .reject

/-- `s.iter().position(p)`. -/
def position (p : α → Bool) (s : List α) : Option Nat := s.findIdx? p

/-- The value of an option, or `return false`. -/
def orReject : Option α → Scan α
  | some a => .ok a
  | none => .error .reject

@[simp] theorem ok_bind (b : β) (f : β → Scan γ) : ((.ok b : Scan β) >>= f) = f b := rfl

@[simp] theorem require_eq_ok {condition : Bool} {u : Unit} :
    require condition = .ok u ↔ condition = true := by
  cases condition <;> simp [require]

@[simp] theorem require_true : require true = .ok () := rfl

@[simp] theorem orReject_eq_ok {o : Option α} {a : α} : orReject o = .ok a ↔ o = some a := by
  cases o <;> simp [orReject]

@[simp] theorem orReject_some (a : α) : orReject (some a) = .ok a := rfl

@[simp] theorem dropTo_append (xs ys : List α) : dropTo (xs ++ ys) xs.length = .ok ys := by
  rw [dropTo, if_pos (by simp), List.drop_left]

@[simp] theorem takeTo_append (xs ys : List α) : takeTo (xs ++ ys) xs.length = .ok xs := by
  rw [takeTo, if_pos (by simp), List.take_left]

theorem dropTo_append_cons (xs : List α) (a : α) (ys : List α) :
    dropTo (xs ++ a :: ys) (xs.length + 1) = .ok ys := by
  simpa using dropTo_append (xs ++ [a]) ys

@[simp] theorem dropTo_one_cons (a : α) (ys : List α) : dropTo (a :: ys) 1 = .ok ys :=
  dropTo_append [a] ys

theorem dropTo_eq_ok {s t : List α} {lo : Nat} :
    dropTo s lo = .ok t ↔ lo ≤ s.length ∧ s.drop lo = t := by
  unfold dropTo
  split <;> simp [*]

theorem takeTo_eq_ok {s t : List α} {hi : Nat} :
    takeTo s hi = .ok t ↔ hi ≤ s.length ∧ s.take hi = t := by
  unfold takeTo
  split <;> simp [*]

theorem slice_cons_append (a : α) (xs ys : List α) :
    slice (a :: xs ++ ys) 1 (xs.length + 1) = .ok xs := by
  rw [slice, if_pos (by simp)]
  simp

/-- A search finds position `n` exactly when the list splits there at the first hit. -/
theorem position_eq_some {p : α → Bool} {s : List α} {n : Nat} :
    position p s = some n ↔
      ∃ before hit after, s = before ++ hit :: after ∧ n = before.length ∧ p hit = true ∧
        ∀ a ∈ before, p a = false := by
  unfold position
  constructor
  · intro h
    obtain ⟨hn, hhit, hbefore⟩ := List.findIdx?_eq_some_iff_getElem.mp h
    refine ⟨s.take n, s[n], s.drop (n + 1), ?_, ?_, hhit, ?_⟩
    · rw [← List.drop_eq_getElem_cons hn, List.take_append_drop]
    · rw [List.length_take, Nat.min_eq_left (Nat.le_of_lt hn)]
    · intro a ha
      obtain ⟨i, hi, rfl⟩ := List.getElem_of_mem ha
      rw [List.length_take] at hi
      have := hbefore i (by omega)
      simpa using this
  · rintro ⟨before, hit, after, rfl, rfl, hhit, hbefore⟩
    rw [List.findIdx?_append, List.findIdx?_eq_none_iff.mpr hbefore]
    simp [List.findIdx?_cons, hhit]

theorem position_append {p : α → Bool} {before : List α} {hit : α} (after : List α)
    (hhit : p hit = true) (hbefore : ∀ a ∈ before, p a = false) :
    position p (before ++ hit :: after) = some before.length :=
  position_eq_some.mpr ⟨before, hit, after, rfl, rfl, hhit, hbefore⟩

/-- Nothing in the parts of a split list is a place to split at. -/
theorem of_mem_splitOnP {α : Type*} {p : α → Bool} {xs part : List α} (h : part ∈ xs.splitOnP p) :
    ∀ a ∈ part, p a = false := by
  induction xs generalizing part with
  | nil =>
      rw [List.splitOnP_nil, List.mem_singleton] at h
      rw [h]
      exact fun a ha => absurd ha List.not_mem_nil
  | cons x xs ih =>
      rw [List.splitOnP_cons_eq_if_modifyHead] at h
      split at h
      · rcases List.mem_cons.mp h with rfl | h
        · exact fun a ha => absurd ha List.not_mem_nil
        · exact ih h
      · rename_i hx
        obtain ⟨first, rest, hsplit⟩ := List.exists_cons_of_ne_nil (List.splitOnP_ne_nil p xs)
        rw [hsplit, List.modifyHead_cons] at h
        rcases List.mem_cons.mp h with rfl | h
        · have hfirst : ∀ a ∈ first, p a = false := ih (hsplit ▸ List.mem_cons_self)
          exact List.forall_mem_cons.mpr ⟨by simpa using hx, hfirst⟩
        · exact ih (hsplit ▸ List.mem_cons_of_mem _ h)

/-- The parts of a list split at `a` do not hold `a`. -/
theorem notMem_of_mem_splitOn {α : Type*} [DecidableEq α] {a : α} {xs part : List α}
    (h : part ∈ xs.splitOn a) : a ∉ part := by
  intro ha
  rw [List.splitOn_eq_splitOnP] at h
  have hne := of_mem_splitOnP h a ha
  simp at hne

end Scan

end Library
