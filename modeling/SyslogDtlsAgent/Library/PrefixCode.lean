import Mathlib

/-!
# Codes read off the front

A code that can be read off the front of any input is injective, none of its words is a prefix of another,
and a concatenation of words is read back as the list it was made of.
-/

namespace Library

variable {α β : Type*}

/-- Reading gives a code word back, with all of what follows it. -/
def ReadsBack (encode : α → List β) (decode : List β → Option (α × List β)) : Prop :=
  ∀ a rest, decode (encode a ++ rest) = some (a, rest)

/-- Reads words until the input is used up; every word takes at least one step of the fuel. -/
def decodeAll (decode : List β → Option (α × List β)) : Nat → List β → Option (List α)
  | _, [] => some []
  | 0, _ :: _ => none
  | fuel + 1, b :: input =>
      (decode (b :: input)).bind fun (a, rest) => (decodeAll decode fuel rest).map (a :: ·)

namespace ReadsBack

variable {encode : α → List β} {decode : List β → Option (α × List β)}

theorem prefix_free (h : ReadsBack encode decode) {a b : α} (hstarts : encode a <+: encode b) : a = b := by
  obtain ⟨rest, hrest⟩ := hstarts
  have hread := h b []
  rw [List.append_nil, ← hrest, h a rest] at hread
  exact congrArg Prod.fst (Option.some.inj hread)

theorem injective (h : ReadsBack encode decode) : Function.Injective encode := by
  intro a b hab
  apply h.prefix_free
  rw [hab]

theorem decodeAll_flatMap (h : ReadsBack encode decode) (hne : ∀ a, encode a ≠ []) (as : List α) {fuel : Nat}
    (hfuel : (as.flatMap encode).length ≤ fuel) : decodeAll decode fuel (as.flatMap encode) = some as := by
  induction as generalizing fuel with
  | nil => simp only [List.flatMap_nil, decodeAll]
  | cons a as ih =>
      obtain ⟨b, word, hword⟩ := List.exists_cons_of_ne_nil (hne a)
      rw [List.flatMap_cons, List.length_append, hword, List.length_cons] at hfuel
      cases fuel with
      | zero => omega
      | succ fuel =>
          have hread : decode (b :: (word ++ as.flatMap encode)) = some (a, as.flatMap encode) := by
            rw [← List.cons_append, ← hword]
            exact h a _
          have hothers := ih (show (as.flatMap encode).length ≤ fuel by omega)
          rw [List.flatMap_cons, hword, List.cons_append, decodeAll, hread, Option.bind_some]
          simp only [hothers, Option.map_some]

end ReadsBack

end Library
