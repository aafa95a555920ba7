import Mathlib

/-!
# Documents

The values of a TOML document, without floats and dates, and how a record is read from a table: by the
names of its fields, each of them once, no other name, and a default for a field that is missing. A table
lists its entries by name.
-/

namespace Library

inductive Toml where
  | string (s : String)
  | integer (n : Int)
  | boolean (b : Bool)
  | array (values : List Toml)
  | table (entries : List (String × Toml))

namespace Toml

/-- Every integer fits 64 bits. -/
inductive InRange : Toml → Prop where
  | string (s : String) : InRange (.string s)
  | integer {n : Int} (hlow : -2 ^ 63 ≤ n) (hhigh : n < 2 ^ 63) : InRange (.integer n)
  | boolean (b : Bool) : InRange (.boolean b)
  | array {values : List Toml} (h : ∀ v ∈ values, InRange v) : InRange (.array values)
  | table {entries : List (String × Toml)} (h : ∀ e ∈ entries, InRange e.2) : InRange (.table entries)

theorem InRange.ofNat {n : Nat} (h : n < 2 ^ 63) : InRange (.integer n) :=
  .integer (by omega) (by exact_mod_cast h)

@[simp] theorem inRange_string (s : String) : InRange (.string s) := .string s

@[simp] theorem inRange_boolean (b : Bool) : InRange (.boolean b) := .boolean b

@[simp] theorem inRange_array {values : List Toml} : InRange (.array values) ↔ ∀ v ∈ values, v.InRange :=
  ⟨fun | .array h => h, .array⟩

@[simp] theorem inRange_table {entries : List (String × Toml)} :
    InRange (.table entries) ↔ ∀ e ∈ entries, e.2.InRange :=
  ⟨fun | .table h => h, .table⟩

section Reading

variable {α : Type}

def asString : Toml → Option String
  | .string s => some s
  | _ => none

def asBool : Toml → Option Bool
  | .boolean b => some b
  | _ => none

/-- An unsigned integer up to the largest one of its type. -/
def asUnsigned (max : Nat) : Toml → Option Nat
  | .integer n => if 0 ≤ n ∧ n ≤ max then some n.toNat else none
  | _ => none

def asList (read : Toml → Option α) : Toml → Option (List α)
  | .array values => values.mapM read
  | _ => none

/-- The entries of a table with no unknown and no repeated name. -/
def fields (known : List String) : Toml → Option (List (String × Toml))
  | .table entries =>
      if (entries.map Prod.fst).all known.contains && decide (entries.map Prod.fst).Nodup then some entries else none
  | _ => none

/-- A field, or what stands for it where it is missing. -/
def field (entries : List (String × Toml)) (name : String) (read : Toml → Option α) (missing : Option α) :
    Option α :=
  match entries.lookup name with
  | some value => read value
  | none => missing

/-- A field that may be missing. -/
def optionalField (entries : List (String × Toml)) (name : String) (read : Toml → Option α) : Option (Option α) :=
  field entries name (fun value => (read value).map some) (some none)

/-! Reading a field walks over the entries in front of it. -/

@[simp] theorem field_nil (name : String) (read : Toml → Option α) (missing : Option α) :
    field [] name read missing = missing := rfl

@[simp] theorem field_here (name : String) (value : Toml) (rest : List (String × Toml)) (read : Toml → Option α)
    (missing : Option α) : field ((name, value) :: rest) name read missing = read value := by
  rw [field, List.lookup_cons_self]

theorem field_next {name other : String} (h : name ≠ other) (value : Toml) (rest : List (String × Toml))
    (read : Toml → Option α) (missing : Option α) :
    field ((other, value) :: rest) name read missing = field rest name read missing := by
  rw [field, List.lookup_cons, beq_false_of_ne h]
  rfl

/-- The names of the entries are known and distinct. -/
theorem fields_table {known : List String} {entries : List (String × Toml)}
    (h : ((entries.map Prod.fst).all known.contains && decide (entries.map Prod.fst).Nodup) = true) :
    fields known (.table entries) = some entries := by
  rw [fields, if_pos h]

@[simp] theorem asString_string (s : String) : asString (.string s) = some s := rfl

@[simp] theorem asBool_boolean (b : Bool) : asBool (.boolean b) = some b := rfl

theorem asUnsigned_integer {n max : Nat} (h : n ≤ max) : asUnsigned max (.integer n) = some n := by
  rw [asUnsigned, if_pos ⟨by omega, by exact_mod_cast h⟩, Int.toNat_natCast]

/-- A list is read back where its members are. -/
theorem asList_array {write : α → Toml} {read : Toml → Option α} (h : ∀ a, read (write a) = some a) (values : List α) :
    asList read (.array (values.map write)) = some values := by
  induction values with
  | nil => rfl
  | cons a values ih =>
      simp only [asList, List.map_cons, List.mapM_cons, h] at ih ⊢
      rw [ih]
      rfl

end Reading

end Toml

end Library
