import Mathlib

/-!
# Tick counters in a ring of buckets

A ring of `n` buckets counts events by their tick in bounded memory: the bucket of a tick is the one
at `tick % n`, and recording a tick there forgets every older tick of the same residue. `Represents`
says what the ring still knows of the whole history of ticks, and `total_eq_countP` is the window
theorem: a query is exact when no recorded tick lies `n` or more above a tick it asks for.
-/

namespace Library

/-- What one bucket holds: the tick it last counted, and how often. -/
structure Bucket where
  tick : Nat
  count : Nat
  deriving DecidableEq

/-- The bucket after one more event at `tick`. -/
def Bucket.increment (bucket : Bucket) (tick : Nat) : Bucket :=
  let current := if bucket.tick ≠ tick then ⟨tick, 0⟩ else bucket
  { current with count := current.count + 1 }

/-- `n` buckets. -/
abbrev Ring (n : Nat) := Fin n → Bucket

namespace Ring

variable {n : Nat} [NeZero n]

def empty : Ring n := fun _ => ⟨0, 0⟩

/-- Count one event at `tick`. -/
def record (ring : Ring n) (tick : Nat) : Ring n :=
  Function.update ring (Fin.ofNat n tick) ((ring (Fin.ofNat n tick)).increment tick)

/-- The events at the ticks of a window. -/
def total (ring : Ring n) (window : Nat → Bool) : Nat :=
  (((List.finRange n).map ring).filter (window ·.tick)).map Bucket.count |>.sum

/-- Every bucket counts the newest recorded tick of its residue, and all events at that tick. -/
def Represents (ring : Ring n) (history : List Nat) : Prop :=
  ∀ i : Fin n,
    (∀ tick ∈ history, tick % n = i.val →
      tick ≤ (ring i).tick ∧ (ring i).tick % n = i.val ∧ (ring i).tick ∈ history) ∧
    (ring i).count = history.countP fun tick => tick % n = i.val ∧ tick = (ring i).tick

omit [NeZero n] in
theorem represents_empty : Represents (empty : Ring n) [] := by
  intro i
  exact ⟨fun tick htick => absurd htick List.not_mem_nil, rfl⟩

/-- Recording a tick that is not older than any before it keeps the ring faithful. -/
theorem Represents.record {ring : Ring n} {history : List Nat} (h : Represents ring history)
    {tick : Nat} (hnewest : ∀ old ∈ history, old ≤ tick) :
    Represents (ring.record tick) (history ++ [tick]) := by
  intro i
  obtain ⟨hseen, hcount⟩ := h i
  by_cases hi : i = Fin.ofNat n tick
  · -- The bucket of the new tick.
    have hres : tick % n = i.val := by rw [hi, Fin.val_ofNat]
    have hbucket : Ring.record ring tick i = (ring i).increment tick := by
      rw [Ring.record, hi, Function.update_self]
    have htick : ((ring i).increment tick).tick = tick := by
      unfold Bucket.increment
      split
      · rfl
      · rename_i h
        exact not_not.mp h
    rw [hbucket, htick]
    refine ⟨fun old hold _ => ?_, ?_⟩
    · refine ⟨?_, hres, by simp⟩
      rcases List.mem_append.mp hold with hold | hold
      · exact hnewest old hold
      · rw [List.mem_singleton.mp hold]
    · have hold : history.countP (fun old => old % n = i.val ∧ old = tick) =
          if (ring i).tick = tick then (ring i).count else 0 := by
        split
        · rename_i heq
          rw [hcount, heq]
        · rename_i hne
          apply List.countP_eq_zero.mpr
          intro old hmem hp
          simp only [decide_eq_true_eq] at hp
          obtain ⟨hle, _, hin⟩ := hseen old hmem hp.1
          have := hnewest _ hin
          omega
      rw [List.countP_append, hold, Bucket.increment]
      by_cases heq : (ring i).tick = tick <;> simp [heq, hres]
  · -- Every other bucket keeps what it counted.
    have hres : tick % n ≠ i.val := fun heq => hi (Fin.ext (by rw [Fin.val_ofNat, heq]))
    have hbucket : Ring.record ring tick i = ring i := by
      rw [Ring.record, Function.update_of_ne hi]
    rw [hbucket]
    refine ⟨fun old hold hmod => ?_, ?_⟩
    · rcases List.mem_append.mp hold with hold | hold
      · obtain ⟨hle, hmod', hin⟩ := hseen old hold hmod
        exact ⟨hle, hmod', List.mem_append_left _ hin⟩
      · rw [List.mem_singleton.mp hold] at hmod
        exact absurd hmod hres
    · rw [List.countP_append, hcount]
      simp [hres]

/-- Counting a history bucket by bucket. -/
theorem countP_eq_sum (history : List Nat) (window : Nat → Bool) :
    history.countP window =
      ((List.finRange n).map fun i => history.countP fun tick => tick % n = i.val ∧ window tick).sum := by
  induction history with
  | nil => simp
  | cons tick history ih =>
      have hone : ((List.finRange n).map fun i : Fin n =>
          if tick % n = i.val ∧ window tick = true then 1 else 0).sum = if window tick then 1 else 0 := by
        have hmod : tick % n < n := Nat.mod_lt _ (NeZero.pos n)
        rw [← List.sum_toFinset _ (List.nodup_finRange n), List.toFinset_finRange,
          Finset.sum_eq_single (⟨tick % n, hmod⟩ : Fin n)]
        · simp
        · intro i _ hi
          rw [if_neg]
          rintro ⟨heq, _⟩
          exact hi (Fin.ext heq.symm)
        · simp
      simp only [List.countP_cons, decide_eq_true_eq, List.sum_map_add, hone, ← ih]

omit [NeZero n] in
/-- Ticks of one residue less than a turn apart are equal. -/
private theorem eq_of_residue {a b : Nat} (hle : a ≤ b) (hmod : b % n = a % n) (hlt : b < a + n) :
    a = b := by
  have hsub : (b - a) % n = 0 := Nat.sub_mod_eq_zero_of_mod_eq hmod
  rw [Nat.mod_eq_of_lt (by omega)] at hsub
  omega

/-- The window theorem: the ring answers a query exactly when every recorded tick stays below the
queried ticks plus the ring's size. -/
theorem Represents.total_eq_countP {ring : Ring n} {history : List Nat} (h : Represents ring history)
    (window : Nat → Bool)
    (hfits : ∀ tick ∈ history, window tick = true → ∀ other ∈ history, other < tick + n) :
    ring.total window = history.countP window := by
  have htotal : ring.total window =
      ((List.finRange n).map fun i => if window (ring i).tick then (ring i).count else 0).sum := by
    unfold Ring.total
    induction List.finRange n with
    | nil => rfl
    | cons i rest ih =>
        simp only [List.map_cons, List.sum_cons, ← ih, List.filter_cons]
        split <;> simp
  -- A queried tick is the one its bucket holds.
  have hheld : ∀ i : Fin n, ∀ tick ∈ history, tick % n = i.val → window tick = true →
      tick = (ring i).tick := by
    intro i tick htick hmod hin
    obtain ⟨hle, hmod', hnewest⟩ := (h i).1 tick htick hmod
    exact eq_of_residue hle (hmod'.trans hmod.symm) (hfits tick htick hin _ hnewest)
  rw [htotal, countP_eq_sum (n := n)]
  congr 1
  apply List.map_congr_left
  intro i _
  split
  · rename_i hwindow
    rw [(h i).2]
    apply List.countP_congr
    intro tick htick
    simp only [decide_eq_true_eq]
    constructor
    · rintro ⟨hmod, rfl⟩
      exact ⟨hmod, hwindow⟩
    · rintro ⟨hmod, hin⟩
      exact ⟨hmod, hheld i tick htick hmod hin⟩
  · rename_i hwindow
    symm
    apply List.countP_eq_zero.mpr
    intro tick htick hp
    simp only [decide_eq_true_eq] at hp
    exact hwindow (hheld i tick htick hp.1 hp.2 ▸ hp.2)

end Ring

end Library
