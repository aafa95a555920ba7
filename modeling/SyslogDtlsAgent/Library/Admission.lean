import Mathlib

/-!
# Admitting the first keys

A table that takes a new key only while it has room holds the first distinct keys it was shown. Keys
are never evicted, and a key that was turned away once is turned away for good.
-/

namespace Library

variable {α : Type*} [DecidableEq α]

/-- The first `limit` distinct keys of a list of sightings, in the order of their first sighting. -/
def admitted (limit : Nat) (sightings : List α) : List α := sightings.eraseDups.take limit

@[simp] theorem admitted_nil (limit : Nat) : admitted limit ([] : List α) = [] := by
  simp [admitted]

theorem eraseDups_concat (sightings : List α) (key : α) : (sightings ++ [key]).eraseDups =
    if key ∈ sightings then sightings.eraseDups else sightings.eraseDups ++ [key] := by
  rw [List.eraseDups_append]
  split <;> rename_i h <;> simp [List.removeAll, List.eraseDups_cons, h]

theorem nodup_eraseDups (sightings : List α) : sightings.eraseDups.Nodup := by
  induction sightings using List.reverseRecOn with
  | nil => simp
  | append_singleton sightings key ih =>
      rw [eraseDups_concat]
      split
      · exact ih
      · rename_i h
        refine List.nodup_append.mpr ⟨ih, List.nodup_singleton key, ?_⟩
        rintro other hother _ hkey rfl
        exact h (List.mem_eraseDups.mp (List.mem_singleton.mp hkey ▸ hother))

theorem nodup_admitted (limit : Nat) (sightings : List α) : (admitted limit sightings).Nodup :=
  (nodup_eraseDups sightings).sublist (List.take_sublist _ _)

theorem mem_of_admitted {limit : Nat} {sightings : List α} {key : α} (h : key ∈ admitted limit sightings) :
    key ∈ sightings :=
  List.mem_eraseDups.mp (List.mem_of_mem_take h)

theorem length_admitted (limit : Nat) (sightings : List α) :
    (admitted limit sightings).length = min limit sightings.eraseDups.length :=
  List.length_take

/-- While there is room, every key shown so far has been admitted. -/
theorem admitted_of_room {limit : Nat} {sightings : List α} {key : α} (hkey : key ∈ sightings)
    (hroom : (admitted limit sightings).length < limit) : key ∈ admitted limit sightings := by
  rw [length_admitted] at hroom
  rw [admitted, List.take_of_length_le (by omega)]
  exact List.mem_eraseDups.mpr hkey

/-- What one more sighting does to the keys admitted. -/
theorem admitted_concat (limit : Nat) (sightings : List α) (key : α) :
    admitted limit (sightings ++ [key]) =
      if key ∉ sightings ∧ (admitted limit sightings).length < limit then
        admitted limit sightings ++ [key]
      else admitted limit sightings := by
  rw [length_admitted, admitted, eraseDups_concat]
  by_cases hseen : key ∈ sightings
  · simp [hseen, admitted]
  · by_cases hroom : sightings.eraseDups.length < limit
    · have hfits : (sightings.eraseDups ++ [key]).length ≤ limit := by
        rw [List.length_append, List.length_singleton]
        omega
      rw [if_neg hseen, if_pos ⟨hseen, by omega⟩, admitted, List.take_of_length_le hfits,
        List.take_of_length_le (by omega)]
    · rw [if_neg hseen, if_neg (by omega), List.take_append_of_le_length (by omega), admitted]

theorem admitted_grows (limit : Nat) (sightings later : List α) :
    admitted limit sightings <+: admitted limit (sightings ++ later) := by
  induction later using List.reverseRecOn with
  | nil => rw [List.append_nil]
  | append_singleton later key ih =>
      refine ih.trans ?_
      rw [← List.append_assoc, admitted_concat]
      split
      · exact List.prefix_append _ _
      · exact List.prefix_rfl

/-- A key that was shown and not admitted never is. -/
theorem not_admitted_forever {limit : Nat} {sightings : List α} {key : α} (hkey : key ∈ sightings)
    (hout : key ∉ admitted limit sightings) (later : List α) :
    key ∉ admitted limit (sightings ++ later) := by
  have hfull : limit ≤ (admitted limit sightings).length := by
    by_contra h
    exact hout (admitted_of_room hkey (by omega))
  have hlimit : (admitted limit (sightings ++ later)).length ≤ limit := by
    rw [length_admitted]
    omega
  rwa [← (admitted_grows limit sightings later).eq_of_length_le (by omega)]

end Library
