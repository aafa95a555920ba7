import Mathlib

/-!
# Supervisors

A supervisor owns one child at a time. It launches a child when it owns none, its child takes steps of its
own, and it lets a child go once that child is over. What births establish and steps keep then holds of every
child there ever was, and at most one of them is not over.
-/

namespace Library

variable {ρ : Type*}

/-- The child a supervisor owns, and those it has let go of, the newest first. -/
structure Household (ρ : Type*) where
  current : Option ρ
  past : List ρ

namespace Household

def all (h : Household ρ) : List ρ := h.current.toList ++ h.past

theorem mem_all {h : Household ρ} {child : ρ} : child ∈ h.all ↔ h.current = some child ∨ child ∈ h.past := by
  rw [all, List.mem_append, Option.mem_toList]

/-- What holds of none of the children let go of holds of one child at most. -/
theorem countP_le_one {P : ρ → Prop} [DecidablePred P] {h : Household ρ} (hpast : ∀ child ∈ h.past, ¬ P child) :
    h.all.countP (fun child => P child) ≤ 1 := by
  have hnone : h.past.countP (fun child => P child) = 0 :=
    List.countP_eq_zero.mpr fun child hchild => by simpa using hpast child hchild
  calc h.all.countP (fun child => P child)
      = h.current.toList.countP (fun child => P child) := by
        rw [all, List.countP_append, hnone, Nat.add_zero]
    _ ≤ h.current.toList.length := List.countP_le_length
    _ ≤ 1 := by cases h.current <;> simp

end Household

variable (Born : ρ → Prop) (Step : ρ → ρ → Prop) (Over : ρ → Prop)

inductive Supervises : Household ρ → Household ρ → Prop where
  | step {child child' : ρ} {past : List ρ} (h : Step child child') :
      Supervises ⟨some child, past⟩ ⟨some child', past⟩
  | reap {child : ρ} {past : List ρ} (h : Over child) : Supervises ⟨some child, past⟩ ⟨none, child :: past⟩
  | launch {child : ρ} {past : List ρ} (h : Born child) : Supervises ⟨none, past⟩ ⟨some child, past⟩

/-- Any number of steps of a supervisor. -/
abbrev Supervised : Household ρ → Household ρ → Prop := Relation.ReflTransGen (Supervises Born Step Over)

variable {Born Step Over} {a b : Household ρ}

namespace Supervises

theorem all {P : ρ → Prop} (born : ∀ child, Born child → P child)
    (step : ∀ child child', P child → Step child child' → P child') (h : Supervises Born Step Over a b)
    (ha : ∀ child ∈ a.all, P child) : ∀ child ∈ b.all, P child := by
  cases h with
  | step hstep =>
      obtain ⟨hcurrent, hpast⟩ := List.forall_mem_cons.mp ha
      exact List.forall_mem_cons.mpr ⟨step _ _ hcurrent hstep, hpast⟩
  | reap => exact ha
  | launch hborn => exact List.forall_mem_cons.mpr ⟨born _ hborn, ha⟩

theorem past (h : Supervises Born Step Over a b) (ha : ∀ child ∈ a.past, Over child) :
    a.past <:+ b.past ∧ ∀ child ∈ b.past, Over child := by
  cases h with
  | step => exact ⟨List.suffix_refl _, ha⟩
  | reap hover => exact ⟨List.suffix_cons _ _, List.forall_mem_cons.mpr ⟨hover, ha⟩⟩
  | launch => exact ⟨List.suffix_refl _, ha⟩

theorem length_le (h : Supervises Born Step Over a b) : a.all.length ≤ b.all.length := by
  cases h with
  | step => exact Nat.le_refl _
  | reap => exact Nat.le_refl _
  | launch => exact Nat.le_succ _

end Supervises

namespace Supervised

theorem all {P : ρ → Prop} (born : ∀ child, Born child → P child)
    (step : ∀ child child', P child → Step child child' → P child') (h : Supervised Born Step Over a b)
    (ha : ∀ child ∈ a.all, P child) : ∀ child ∈ b.all, P child := by
  induction h with
  | refl => exact ha
  | tail _ hlast ih => exact hlast.all born step ih

/-- The children let go of are over, and stay what they are. -/
theorem past (h : Supervised Born Step Over a b) (ha : ∀ child ∈ a.past, Over child) :
    a.past <:+ b.past ∧ ∀ child ∈ b.past, Over child := by
  induction h with
  | refl => exact ⟨List.suffix_refl _, ha⟩
  | tail _ hlast ih =>
      obtain ⟨hsuffix, hover⟩ := ih
      obtain ⟨hmore, hover⟩ := hlast.past hover
      exact ⟨hsuffix.trans hmore, hover⟩

/-- No child is forgotten. -/
theorem length_le (h : Supervised Born Step Over a b) : a.all.length ≤ b.all.length := by
  induction h with
  | refl => exact Nat.le_refl _
  | tail _ hlast ih => exact ih.trans hlast.length_le

/-- At most one child is not over. -/
theorem one_left (h : Supervised Born Step Over a b) (ha : ∀ child ∈ a.past, Over child) [DecidablePred Over] :
    b.all.countP (fun child => ¬ Over child) ≤ 1 := by
  obtain ⟨-, hover⟩ := h.past ha
  exact Household.countP_le_one fun child hchild hleft => hleft (hover child hchild)

end Supervised

end Library
