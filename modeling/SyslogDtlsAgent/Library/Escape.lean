import SyslogDtlsAgent.Library.PrefixCode

/-!
# Escaping

Special characters stand in a text as words that begin with one marker, itself a special character. Done
by one replacement after another, the marker's first, this is a map of the characters, and reading the words
back in one pass undoes it.
-/

namespace Library

variable {α : Type*} [DecidableEq α]

/-- Every `a` replaced by a word. -/
def substitute (a : α) (word : List α) (xs : List α) : List α :=
  xs.flatMap fun b => if b = a then word else [b]

theorem substitute_of_not_mem {a : α} (word : List α) {xs : List α} (h : a ∉ xs) :
    substitute a word xs = xs := by
  induction xs with
  | nil => rfl
  | cons b xs ih =>
      have hb : b ≠ a := fun hb => h (hb ▸ List.mem_cons_self)
      have hxs := ih fun hmem => h (List.mem_cons_of_mem b hmem)
      rw [substitute, List.flatMap_cons, if_neg hb]
      exact congrArg (b :: ·) hxs

/-- A marker, what follows it where it stands for itself, and what follows it where it stands for each of
the other special characters. -/
structure Escaping (α : Type*) where
  marker : α
  own : List α
  others : List (α × List α)
  others_ne : ∀ e ∈ others, e.1 ≠ marker
  clean : ∀ e ∈ (marker, own) :: others, ∀ special ∈ (marker, own) :: others, special.1 ∉ e.2
  prefix_free : ∀ e ∈ (marker, own) :: others, ∀ e' ∈ (marker, own) :: others, e.2 <+: e'.2 → e = e'

namespace Escaping

variable (E : Escaping α)

def entries : List (α × List α) := (E.marker, E.own) :: E.others

def word (e : α × List α) : List α := E.marker :: e.2

/-- What a character is written as, by the first of some entries that is about it. -/
def codeBy (entries : List (α × List α)) (a : α) : List α :=
  ((entries.find? fun e => e.1 = a).map E.word).getD [a]

def code (a : α) : List α := E.codeBy E.entries a

def escape (xs : List α) : List α := xs.flatMap E.code

/-- One replacement after another. -/
def escapeInTurn (entries : List (α × List α)) (xs : List α) : List α :=
  entries.foldl (fun xs e => substitute e.1 (E.word e) xs) xs

/-- A word is read as what it stands for, anything else as itself. -/
def read : List α → Option (α × List α)
  | [] => none
  | a :: rest =>
      match E.entries.find? fun e => (E.word e).isPrefixOf (a :: rest) with
      | some e => some (e.1, (a :: rest).drop (E.word e).length)
      | none => some (a, rest)

/-- One pass from the left. -/
def unescape (xs : List α) : Option (List α) := decodeAll E.read xs.length xs

variable {E}

/-! ### Replacements in turn -/

theorem codeBy_concat {entries : List (α × List α)} {e : α × List α}
    (hlater : ∀ e' ∈ entries, e.1 ∉ E.word e') (a : α) :
    substitute e.1 (E.word e) (E.codeBy entries a) = E.codeBy (entries ++ [e]) a := by
  unfold codeBy
  rw [List.find?_append]
  cases hfind : entries.find? fun e => e.1 = a with
  | some e' =>
      show substitute e.1 (E.word e) (E.word e') = E.word e'
      exact substitute_of_not_mem _ (hlater e' (List.mem_of_find?_eq_some hfind))
  | none =>
      by_cases ha : e.1 = a
      · simp [substitute, ha]
      · have ha' : a ≠ e.1 := fun h => ha h.symm
        simp [substitute, ha, ha']

theorem escapeInTurn_eq_flatMap {entries : List (α × List α)}
    (hordered : entries.Pairwise fun e later => later.1 ∉ E.word e) (xs : List α) :
    E.escapeInTurn entries xs = xs.flatMap (E.codeBy entries) := by
  induction entries using List.reverseRecOn with
  | nil => exact (List.flatMap_singleton' xs).symm
  | append_singleton entries e ih =>
      rw [List.pairwise_append] at hordered
      obtain ⟨hentries, -, hlast⟩ := hordered
      have hlater : ∀ e' ∈ entries, e.1 ∉ E.word e' := fun e' he' => hlast e' he' e (List.mem_singleton_self e)
      calc E.escapeInTurn (entries ++ [e]) xs
          = substitute e.1 (E.word e) (E.escapeInTurn entries xs) := by
            rw [escapeInTurn, List.foldl_append]
            rfl
        _ = xs.flatMap fun a => substitute e.1 (E.word e) (E.codeBy entries a) := by
            rw [ih hentries, substitute, List.flatMap_assoc]
            rfl
        _ = xs.flatMap (E.codeBy (entries ++ [e])) := by
            simp only [codeBy_concat hlater]

omit [DecidableEq α] in
/-- Among special characters, a word contains the marker alone. -/
theorem eq_marker_of_mem_word {e special : α × List α} (he : e ∈ E.entries) (hspecial : special ∈ E.entries)
    (hmem : special.1 ∈ E.word e) : special.1 = E.marker := by
  rcases List.mem_cons.mp hmem with hmarker | hbody
  · exact hmarker
  · exact absurd hbody (E.clean e he special hspecial)

/-- Replacing the marker first and then the others is a map of the characters. -/
theorem escapeInTurn_eq_escape (xs : List α) : E.escapeInTurn E.entries xs = E.escape xs := by
  have hlater : ∀ e ∈ E.entries, ∀ later ∈ E.others, later.1 ∉ E.word e := by
    intro e he later hothers hmem
    have hspecial : later ∈ E.entries := List.mem_cons_of_mem _ hothers
    exact E.others_ne later hothers (eq_marker_of_mem_word he hspecial hmem)
  apply escapeInTurn_eq_flatMap
  apply List.Pairwise.cons
  · exact hlater _ List.mem_cons_self
  · exact List.pairwise_of_forall_mem_list fun e he later => hlater e (List.mem_cons_of_mem _ he) later

/-! ### What a character is written as -/

/-- A character is written as its word if it is special and as itself otherwise. -/
theorem code_cases (a : α) :
    (∃ e ∈ E.entries, e.1 = a ∧ E.code a = E.word e) ∨ ((∀ e ∈ E.entries, e.1 ≠ a) ∧ E.code a = [a]) := by
  unfold code codeBy
  cases hfind : E.entries.find? fun e => e.1 = a with
  | some e =>
      have ha : e.1 = a := by simpa using List.find?_some hfind
      exact .inl ⟨e, List.mem_of_find?_eq_some hfind, ha, rfl⟩
  | none => exact .inr ⟨by simpa using List.find?_eq_none.mp hfind, rfl⟩

theorem code_ne_nil (a : α) : E.code a ≠ [] := by
  rcases @code_cases α _ E a with ⟨e, -, -, hcode⟩ | ⟨-, hcode⟩
  · rw [hcode]
    exact List.cons_ne_nil _ _
  · rw [hcode]
    exact List.cons_ne_nil _ _

/-- An escaped text has no special characters but markers. -/
theorem eq_marker_of_mem_escape {xs : List α} {special : α × List α} (hspecial : special ∈ E.entries)
    (hmem : special.1 ∈ E.escape xs) : special.1 = E.marker := by
  obtain ⟨a, -, ha⟩ := List.mem_flatMap.mp hmem
  rcases @code_cases α _ E a with ⟨e, he, -, hcode⟩ | ⟨hother, hcode⟩
  · rw [hcode] at ha
    exact eq_marker_of_mem_word he hspecial ha
  · rw [hcode] at ha
    exact absurd (List.mem_singleton.mp ha) (hother special hspecial)

/-- Every marker in an escaped text begins a word. -/
theorem word_of_marker {xs before after : List α} (h : E.escape xs = before ++ E.marker :: after) :
    ∃ e ∈ E.entries, E.word e <+: E.marker :: after := by
  have hmarker : (E.marker, E.own) ∈ E.entries := List.mem_cons_self
  induction xs generalizing before with
  | nil => simp [escape] at h
  | cons a xs ih =>
      rw [escape, List.flatMap_cons] at h
      rcases List.append_eq_append_iff.mp h with ⟨more, -, hrest⟩ | ⟨more, hcode, hrest⟩
      · exact ih hrest
      · cases more with
        | nil =>
            have hnext : E.escape xs = [] ++ E.marker :: after := hrest.symm
            exact ih hnext
        | cons b more =>
            obtain ⟨rfl, hafter⟩ := List.cons.inj hrest
            rcases @code_cases α _ E a with ⟨e, he, -, hword⟩ | ⟨hother, hself⟩
            · -- the marker is the first character of a word and no other
              refine ⟨e, he, ?_⟩
              rw [hword, word] at hcode
              cases before with
              | nil =>
                  rw [hafter, word, hcode]
                  exact ⟨_, rfl⟩
              | cons c before =>
                  obtain ⟨-, hbody⟩ := List.cons.inj hcode
                  have hmem : E.marker ∈ e.2 := by
                    rw [hbody]
                    exact List.mem_append_right _ List.mem_cons_self
                  exact absurd hmem (E.clean e he _ hmarker)
            · have hmem : E.marker ∈ E.code a := by
                rw [hcode]
                exact List.mem_append_right _ List.mem_cons_self
              rw [hself] at hmem
              exact absurd (List.mem_singleton.mp hmem) (hother _ hmarker)

/-! ### Reading back -/

theorem read_word {e : α × List α} (he : e ∈ E.entries) (rest : List α) :
    E.read (E.word e ++ rest) = some (e.1, rest) := by
  have hread : E.read (E.word e ++ rest) =
      match E.entries.find? fun e' => (E.word e').isPrefixOf (E.word e ++ rest) with
      | some e' => some (e'.1, (E.word e ++ rest).drop (E.word e').length)
      | none => some (E.marker, e.2 ++ rest) := rfl
  have hself : (E.word e).isPrefixOf (E.word e ++ rest) = true :=
    List.isPrefixOf_iff_prefix.mpr (List.prefix_append _ _)
  rw [hread]
  cases hfind : E.entries.find? fun e' => (E.word e').isPrefixOf (E.word e ++ rest) with
  | some e' =>
      have he' : e' ∈ E.entries := List.mem_of_find?_eq_some hfind
      have hfound := List.find?_some hfind
      have hstarts : E.word e' <+: E.word e ++ rest := List.isPrefixOf_iff_prefix.mp hfound
      have hsame : e' = e := by
        rcases List.prefix_or_prefix_of_prefix hstarts (List.prefix_append _ _) with h | h
        · exact E.prefix_free e' he' e he (List.cons_prefix_cons.mp h).2
        · exact (E.prefix_free e he e' he' (List.cons_prefix_cons.mp h).2).symm
      simp only [hsame, List.drop_left]
  | none => exact absurd hself (List.find?_eq_none.mp hfind e he)

theorem read_other {a : α} (ha : a ≠ E.marker) (rest : List α) : E.read (a :: rest) = some (a, rest) := by
  have hnone : E.entries.find? (fun e => (E.word e).isPrefixOf (a :: rest)) = none := by
    apply List.find?_eq_none.mpr
    intro e _ hstarts
    exact ha (List.cons_prefix_cons.mp (List.isPrefixOf_iff_prefix.mp hstarts)).1.symm
  rw [read, hnone]

theorem code_reads_back : ReadsBack E.code E.read := by
  intro a rest
  rcases @code_cases α _ E a with ⟨e, he, rfl, hcode⟩ | ⟨hother, hcode⟩
  · rw [hcode]
    exact read_word he rest
  · rw [hcode]
    exact read_other (hother _ List.mem_cons_self).symm rest

/-- Reading an escaped text in one pass gives the text. -/
theorem unescape_escape (xs : List α) : E.unescape (E.escape xs) = some xs :=
  code_reads_back.decodeAll_flatMap code_ne_nil xs (Nat.le_refl _)

end Escaping

end Library
