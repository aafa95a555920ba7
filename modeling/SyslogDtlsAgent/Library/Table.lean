import Mathlib

/-!
# Finite tables

Mathlib's `AList` as the model of a map keyed by values of one type, with the operations that maps of
the standard libraries have and `AList` lacks: keeping the entries that pass a test, changing the
value at a key, and totals over all entries.
-/

namespace Library

/-- A finite map from `κ` to `ν`; no key occurs twice. -/
abbrev Table (κ : Type*) (ν : Type*) := AList (fun _ : κ => ν)

end Library

namespace AList

open Library

variable {κ ν : Type*} [DecidableEq κ]

def size (m : Table κ ν) : Nat := m.entries.length

/-- The entries that pass a test. -/
def retain (keep : κ → ν → Bool) (m : Table κ ν) : Table κ ν where
  entries := m.entries.filter fun e => keep e.1 e.2
  nodupKeys := m.nodupKeys.sublist List.filter_sublist

/-- Change the value at a key; nothing happens where the key is absent. -/
def modify (key : κ) (change : ν → ν) (m : Table κ ν) : Table κ ν :=
  match m.lookup key with
  | some value => m.insert key (change value)
  | none => m

/-- Erase a key, if there is one to erase. -/
def forget (key : Option κ) (m : Table κ ν) : Table κ ν :=
  match key with
  | some key => m.erase key
  | none => m

/-- The total of a quantity over all entries. -/
def total (f : ν → Nat) (m : Table κ ν) : Nat := (m.entries.map fun e => f e.2).sum

theorem mem_entries_iff {m : Table κ ν} {key : κ} {value : ν} :
    (⟨key, value⟩ : Sigma fun _ : κ => ν) ∈ m.entries ↔ m.lookup key = some value :=
  mem_lookup_iff.symm

theorem mem_iff_lookup {m : Table κ ν} {key : κ} : key ∈ m ↔ ∃ value, m.lookup key = some value := by
  rw [← lookup_isSome, Option.isSome_iff_exists]

theorem lookup_insert' (m : Table κ ν) (key other : κ) (value : ν) :
    (m.insert key value).lookup other = if other = key then some value else m.lookup other := by
  by_cases h : other = key
  · rw [if_pos h, h, lookup_insert]
  · rw [if_neg h, lookup_insert_ne h]

theorem lookup_erase' (m : Table κ ν) (key other : κ) :
    (m.erase key).lookup other = if other = key then none else m.lookup other := by
  by_cases h : other = key
  · rw [if_pos h, h, lookup_erase]
  · rw [if_neg h, lookup_erase_ne h]

@[simp] theorem lookup_retain (keep : κ → ν → Bool) (m : Table κ ν) (key : κ) :
    (m.retain keep).lookup key = (m.lookup key).filter (keep key) := by
  apply Option.ext
  intro value
  rw [← mem_entries_iff, Option.filter_eq_some_iff, ← mem_entries_iff]
  exact List.mem_filter

theorem lookup_forget (key : Option κ) (m : Table κ ν) (other : κ) :
    (m.forget key).lookup other = if key = some other then none else m.lookup other := by
  cases key with
  | none => rfl
  | some key => simp only [forget, lookup_erase', Option.some.injEq, eq_comm]

theorem lookup_forget_eq_some {key : Option κ} {m : Table κ ν} {other : κ} {value : ν} :
    (m.forget key).lookup other = some value ↔ key ≠ some other ∧ m.lookup other = some value := by
  rw [lookup_forget]
  split <;> simp [*]

theorem lookup_retain_eq_some {keep : κ → ν → Bool} {m : Table κ ν} {key : κ} {value : ν} :
    (m.retain keep).lookup key = some value ↔ m.lookup key = some value ∧ keep key value = true := by
  rw [lookup_retain, Option.filter_eq_some_iff]

@[simp] theorem lookup_modify (key other : κ) (change : ν → ν) (m : Table κ ν) :
    (m.modify key change).lookup other =
      if other = key then (m.lookup key).map change else m.lookup other := by
  cases hvalue : m.lookup key with
  | none =>
      simp only [modify, hvalue, Option.map_none]
      split
      · rename_i h
        rw [h, hvalue]
      · rfl
  | some value => simp only [modify, hvalue, lookup_insert', Option.map_some]

@[simp] theorem mem_modify {key other : κ} {change : ν → ν} {m : Table κ ν} :
    other ∈ m.modify key change ↔ other ∈ m := by
  rw [← lookup_isSome, ← lookup_isSome, lookup_modify]
  split
  · rename_i h
    rw [h, Option.isSome_map]
  · rfl

/-! ### Size and totals -/

theorem size_erase_le (m : Table κ ν) (key : κ) : (m.erase key).size ≤ m.size :=
  (List.kerase_sublist key m.entries).length_le

theorem size_forget_le (key : Option κ) (m : Table κ ν) : (m.forget key).size ≤ m.size := by
  cases key with
  | none => exact Nat.le_refl _
  | some key => exact m.size_erase_le key

theorem size_insert_le (m : Table κ ν) (key : κ) (value : ν) : (m.insert key value).size ≤ m.size + 1 := by
  rw [size, entries_insert, List.length_cons]
  exact Nat.succ_le_succ (m.size_erase_le key)

theorem perm_of_lookup {m : Table κ ν} {key : κ} {value : ν} (h : m.lookup key = some value) :
    m.entries.Perm (⟨key, value⟩ :: m.entries.kerase key) := by
  have hmem := mem_entries_iff.mpr h
  obtain ⟨before, after, hsplit⟩ := List.append_of_mem hmem
  have hkeys : key ∉ before.keys := by
    have hnodup : (before ++ (⟨key, value⟩ : Sigma fun _ : κ => ν) :: after).NodupKeys :=
      hsplit ▸ m.nodupKeys
    intro hin
    rw [List.NodupKeys, List.keys, List.map_append, List.map_cons] at hnodup
    exact (List.nodup_append.mp hnodup).2.2 key hin key List.mem_cons_self rfl
  have herase : List.kerase key ((⟨key, value⟩ : Sigma fun _ : κ => ν) :: after) = after :=
    List.kerase_cons_eq (β := fun _ : κ => ν) rfl
  rw [hsplit, List.kerase_append_right hkeys, herase]
  exact List.perm_middle

theorem total_insert {m : Table κ ν} {key : κ} (habsent : key ∉ m) (value : ν) (f : ν → Nat) :
    (m.insert key value).total f = f value + m.total f := by
  rw [total, entries_insert_of_notMem habsent, List.map_cons, List.sum_cons, total]

theorem total_modify {m : Table κ ν} {key : κ} {value : ν} (h : m.lookup key = some value)
    (change : ν → ν) (f : ν → Nat) :
    (m.modify key change).total f + f value = m.total f + f (change value) := by
  have hbefore : m.total f = f value + ((m.entries.kerase key).map fun e => f e.2).sum := by
    rw [total, ((perm_of_lookup h).map _).sum_eq, List.map_cons, List.sum_cons]
  have hafter : (m.modify key change).total f =
      f (change value) + ((m.entries.kerase key).map fun e => f e.2).sum := by
    simp only [modify, h, total, entries_insert, List.map_cons, List.sum_cons]
  omega

/-- A change that keeps a quantity keeps its total. -/
theorem total_modify_same {key : κ} {change : ν → ν} {f : ν → Nat} (m : Table κ ν)
    (hsame : ∀ value, f (change value) = f value) : (m.modify key change).total f = m.total f := by
  cases hvalue : m.lookup key with
  | none => simp only [modify, hvalue]
  | some value =>
      have := total_modify hvalue change f
      have := hsame value
      omega

/-! ### Tables with a limit -/

/-- At most `limit` entries, each with a property. -/
structure Within (limit : Nat) (P : ν → Prop) (m : Table κ ν) : Prop where
  size : m.size ≤ limit
  values : ∀ key value, m.lookup key = some value → P value

namespace Within

variable {limit : Nat} {P : ν → Prop} {m : Table κ ν}

theorem empty : Within limit P (∅ : Table κ ν) where
  size := Nat.zero_le limit
  values key value h := by simp at h

theorem retain (h : Within limit P m) (keep : κ → ν → Bool) : Within limit P (m.retain keep) where
  size := (List.length_filter_le _ _).trans h.size
  values key value hlookup := h.values key value (lookup_retain_eq_some.mp hlookup).1

theorem erase (h : Within limit P m) (key : κ) : Within limit P (m.erase key) where
  size := (m.size_erase_le key).trans h.size
  values other value hlookup := by
    rw [lookup_erase'] at hlookup
    split at hlookup
    · cases hlookup
    · exact h.values other value hlookup

theorem forget (h : Within limit P m) (key : Option κ) : Within limit P (m.forget key) := by
  cases key with
  | none => exact h
  | some key => exact h.erase key

/-- A new entry, for which there is room, in place of an old one. -/
theorem replace (h : Within limit P m) (hroom : m.size < limit) (old : Option κ) (key : κ) {value : ν}
    (hvalue : P value) : Within limit P ((m.forget old).insert key value) where
  size := by
    have hinsert := (m.forget old).size_insert_le key value
    have hforget := m.size_forget_le old
    omega
  values other value' hlookup := by
    rw [lookup_insert'] at hlookup
    split at hlookup
    · cases hlookup
      exact hvalue
    · exact (h.forget old).values other value' hlookup

end Within

end AList
