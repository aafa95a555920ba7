import SyslogDtlsAgent.Library.Scan
import SyslogDtlsAgent.Library.Trim

/-!
# Words

The runs between blanks. Words with one blank between them are read back, and are trimmed.
-/

namespace Library

variable {α : Type*} {blank : α → Bool}

def wordsBy (blank : α → Bool) (xs : List α) : List (List α) :=
  (xs.splitOnP blank).filter fun word => !word.isEmpty

/-- Not empty, and without blanks. -/
structure IsWord (blank : α → Bool) (word : List α) : Prop where
  ne_nil : word ≠ []
  solid : ∀ a ∈ word, blank a = false

theorem isWord_of_mem_wordsBy {xs word : List α} (h : word ∈ wordsBy blank xs) : IsWord blank word where
  ne_nil := by simpa using (List.mem_filter.mp h).2
  solid := Scan.of_mem_splitOnP (List.mem_filter.mp h).1

theorem IsWord.trimmed {word : List α} (h : IsWord blank word) : Trimmed blank word := .of_solid h.solid

theorem wordsBy_intercalate {sep : α} (hsep : blank sep = true) {words : List (List α)}
    (h : ∀ word ∈ words, IsWord blank word) : wordsBy blank ([sep].intercalate words) = words := by
  induction words with
  | nil => rfl
  | cons word words ih =>
      obtain ⟨hword, hwords⟩ := List.forall_mem_cons.mp h
      have hkept (rest : List (List α)) : (word :: rest).filter (fun word => !word.isEmpty) =
          word :: rest.filter fun word => !word.isEmpty :=
        List.filter_cons_of_pos (by simpa using hword.ne_nil)
      cases words with
      | nil =>
          rw [List.intercalate_singleton, wordsBy, List.splitOnP_eq_singleton hword.solid, hkept]
          rfl
      | cons next words =>
          rw [List.intercalate_cons_cons, List.append_assoc, List.singleton_append, wordsBy,
            List.splitOnP_append_cons_of_forall_mem hword.solid sep hsep, hkept]
          exact congrArg (word :: ·) (ih hwords)

theorem mem_intercalate {sep a : α} {words : List (List α)} (h : a ∈ [sep].intercalate words) :
    a = sep ∨ ∃ word ∈ words, a ∈ word := by
  induction words with
  | nil => cases h
  | cons word words ih =>
      cases words with
      | nil =>
          rw [List.intercalate_singleton] at h
          exact .inr ⟨word, List.mem_cons_self, h⟩
      | cons next words =>
          rw [List.intercalate_cons_cons, List.append_assoc, List.mem_append] at h
          rcases h with hword | hrest
          · exact .inr ⟨word, List.mem_cons_self, hword⟩
          · rcases List.mem_cons.mp hrest with hsep | hlater
            · exact .inl hsep
            · rcases ih hlater with hsep | ⟨other, hother, ha⟩
              · exact .inl hsep
              · exact .inr ⟨other, List.mem_cons_of_mem _ hother, ha⟩

theorem intercalate_ne_nil (sep : α) {word : List α} (words : List (List α)) (h : word ≠ []) :
    [sep].intercalate (word :: words) ≠ [] := by
  cases words with
  | nil => rwa [List.intercalate_singleton]
  | cons next words => simp [List.intercalate_cons_cons]

theorem trimmed_intercalate (sep : α) {words : List (List α)} (h : ∀ word ∈ words, IsWord blank word) :
    Trimmed blank ([sep].intercalate words) := by
  induction words with
  | nil => exact ⟨fun a ha => (by cases ha), fun a ha => (by cases ha)⟩
  | cons word words ih =>
      obtain ⟨hword, hwords⟩ := List.forall_mem_cons.mp h
      cases words with
      | nil =>
          rw [List.intercalate_singleton]
          exact hword.trimmed
      | cons next words =>
          have hrest := ih hwords
          have hnil := intercalate_ne_nil sep words (hwords next List.mem_cons_self).ne_nil
          rw [List.intercalate_cons_cons, List.append_assoc]
          constructor
          · rw [List.head?_append_of_ne_nil _ hword.ne_nil]
            exact hword.trimmed.front
          · rw [List.getLast?_append_of_ne_nil _ (by simp), List.getLast?_append_of_ne_nil _ hnil]
            exact hrest.back

end Library
