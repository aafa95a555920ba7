import Mathlib

/-!
# Trimming

Cutting off both ends of a list what a predicate marks as blank.
-/

namespace Library

variable {α : Type*} {blank : α → Bool}

def trimBy (blank : α → Bool) (xs : List α) : List α :=
  ((xs.dropWhile blank).reverse.dropWhile blank).reverse

/-- Neither end is blank. -/
structure Trimmed (blank : α → Bool) (xs : List α) : Prop where
  front : ∀ a ∈ xs.head?, blank a = false
  back : ∀ a ∈ xs.getLast?, blank a = false

/-- Without blanks there are none at the ends. -/
theorem Trimmed.of_solid {xs : List α} (h : ∀ a ∈ xs, blank a = false) : Trimmed blank xs where
  front a ha := h a (List.mem_of_mem_head? ha)
  back a ha := h a (List.mem_of_mem_getLast? ha)

theorem dropWhile_of_front {xs : List α} (h : ∀ a ∈ xs.head?, blank a = false) : xs.dropWhile blank = xs := by
  cases xs with
  | nil => rfl
  | cons a xs =>
      apply List.dropWhile_cons_of_neg
      simp [h a rfl]

/-- Blanks around a trimmed list are what trimming removes. -/
theorem trimBy_pad {before xs after : List α} (hbefore : ∀ a ∈ before, blank a = true) (hxs : Trimmed blank xs)
    (hafter : ∀ a ∈ after, blank a = true) : trimBy blank (before ++ xs ++ after) = xs := by
  have hfront : (before ++ xs ++ after).dropWhile blank = if xs = [] then [] else xs ++ after := by
    rw [List.append_assoc, List.dropWhile_append_of_pos hbefore]
    by_cases hnil : xs = []
    · subst hnil
      rw [if_pos rfl, List.nil_append, List.dropWhile_eq_nil_iff]
      exact hafter
    · rw [if_neg hnil]
      apply dropWhile_of_front
      rw [List.head?_append_of_ne_nil _ hnil]
      exact hxs.front
  rw [trimBy, hfront]
  by_cases hnil : xs = []
  · rw [if_pos hnil, hnil]
    rfl
  · rw [if_neg hnil, List.reverse_append, List.dropWhile_append_of_pos (by simpa using hafter),
      dropWhile_of_front (by simpa using hxs.back), List.reverse_reverse]

theorem trimBy_trimmed {xs : List α} (h : Trimmed blank xs) : trimBy blank xs = xs := by
  have hnone : ∀ a ∈ ([] : List α), blank a = true := fun a ha => absurd ha List.not_mem_nil
  simpa using trimBy_pad hnone h hnone

theorem head?_dropWhile (xs : List α) : ∀ a ∈ (xs.dropWhile blank).head?, blank a = false := by
  intro a ha
  have hfound := List.head?_dropWhile_not blank xs
  rw [Option.mem_def.mp ha] at hfound
  simpa using hfound

theorem trimmed_trimBy (xs : List α) : Trimmed blank (trimBy blank xs) where
  front a ha := by
    -- what is left of the front is a prefix of what the first cut left
    have hsuffix : (xs.dropWhile blank).reverse.dropWhile blank <:+ (xs.dropWhile blank).reverse :=
      List.dropWhile_suffix blank
    have hstarts := List.reverse_prefix.mpr hsuffix
    rw [List.reverse_reverse] at hstarts
    obtain ⟨rest, hrest⟩ := hstarts
    apply head?_dropWhile xs a
    rw [← hrest, List.head?_append]
    have hhead : (trimBy blank xs).head? = some a := ha
    rw [trimBy] at hhead
    rw [hhead]
    rfl
  back a ha := by
    rw [trimBy, List.getLast?_reverse] at ha
    exact head?_dropWhile _ a ha

/-- A list is left alone exactly when neither end is blank. -/
theorem trimBy_eq_self_iff {xs : List α} : trimBy blank xs = xs ↔ Trimmed blank xs := by
  constructor
  · intro h
    rw [← h]
    exact trimmed_trimBy xs
  · exact trimBy_trimmed

end Library
