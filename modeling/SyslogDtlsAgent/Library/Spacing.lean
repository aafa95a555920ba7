import Mathlib

/-!
# Spaced intervals

Intervals on a line, each of which starts at least a gap after every earlier one has ended. How many of
them a window can meet is bounded by its length.
-/

namespace Library

variable {ι K : Type*} [Field K] [LinearOrder K] [IsStrictOrderedRing K] {lo hi : ι → K} {gap : K}

/-- The later one starts a gap after the earlier one has ended. -/
def Spaced (lo hi : ι → K) (gap : K) (earlier later : ι) : Prop := hi earlier + gap ≤ lo later

theorem Spaced.window_length {x : ι} {rest : List ι} {a b : K} (hspaced : (x :: rest).Pairwise (Spaced lo hi gap))
    (hordered : ∀ y ∈ rest, lo y ≤ hi y) (hwindow : a ≤ b) (hstart : a ≤ hi x) (hend : ∀ y ∈ rest, lo y ≤ b) :
    a + rest.length * gap ≤ b := by
  induction rest generalizing x a with
  | nil => simpa using hwindow
  | cons y rest ih =>
      obtain ⟨hfirst, hlater⟩ := List.pairwise_cons.mp hspaced
      have hgap : hi x + gap ≤ lo y := hfirst y List.mem_cons_self
      have hlo : lo y ≤ hi y := hordered y List.mem_cons_self
      have hb : lo y ≤ b := hend y List.mem_cons_self
      have hrest := ih hlater (fun z hz => hordered z (List.mem_cons_of_mem _ hz))
        (show a + gap ≤ b by linarith) (show a + gap ≤ hi y by linarith)
        (fun z hz => hend z (List.mem_cons_of_mem _ hz))
      calc a + ((y :: rest).length : K) * gap = a + gap + rest.length * gap := by
            rw [List.length_cons]
            push_cast
            ring
        _ ≤ b := hrest

/-- At most `rate * length + 1` intervals that are `1 / rate` apart meet a window. -/
theorem Spaced.count_le {items : List ι} {rate a length : K} (hrate : 0 < rate)
    (hspaced : items.Pairwise (Spaced lo hi (1 / rate))) (hordered : ∀ x ∈ items, lo x ≤ hi x)
    (hlength : 0 ≤ length) (hmeets : ∀ x ∈ items, a ≤ hi x ∧ lo x ≤ a + length) :
    (items.length : K) ≤ rate * length + 1 := by
  cases items with
  | nil =>
      rw [List.length_nil, Nat.cast_zero]
      exact add_nonneg (mul_nonneg hrate.le hlength) zero_le_one
  | cons x rest =>
      have hcount : a + (rest.length : K) * (1 / rate) ≤ a + length :=
        Spaced.window_length hspaced (fun y hy => hordered y (List.mem_cons_of_mem _ hy))
          (le_add_of_nonneg_right hlength) (hmeets x List.mem_cons_self).1
          (fun y hy => (hmeets y (List.mem_cons_of_mem _ hy)).2)
      have hdivided : (rest.length : K) / rate ≤ length := by
        rw [← mul_one_div]
        exact (add_le_add_iff_left a).mp hcount
      have hbound : (rest.length : K) ≤ length * rate := (div_le_iff₀ hrate).mp hdivided
      rw [List.length_cons]
      push_cast
      linarith

end Library
