import SyslogDtlsAgent.Proof.Framing.Decimal

/-!
# The header of a message

What the scanners of the priority and of the header fields accept, as splits of their input.
-/

namespace SyslogDtlsAgent

open Library Scan Byte

theorem isUtf8_asBytes (text : String) : isUtf8 (asBytes text) = true :=
  isUtf8_iff.mpr ⟨text.toList, rfl⟩

/-- Numerals have no sign, so the number parser reads their digits. -/
theorem parseU16_digits {text : Bytes} (hne : text ≠ []) (hdigits : ∀ b ∈ text, isDigit b = true)
    {n : Nat} : parseU16 text = some n ↔ n = digitsValue text ∧ n ≤ 65535 := by
  have hplus : text.head? ≠ some plus := by
    intro hhead
    have := hdigits plus (List.mem_of_head? hhead)
    revert this
    decide
  have hall : text.all isDigit = true := List.all_eq_true.mpr hdigits
  simp only [parseU16, if_neg hplus, hne, hall, Bool.not_true, Bool.false_eq_true, false_or]
  split
  · simp only [reduceCtorEq, false_iff]
    omega
  · simp only [Option.some.injEq]
    omega

/-- The priority of an input split at its first `>`. -/
theorem priority_of_split {pri after rest : Bytes} (hpri : greater ∉ pri) :
    priority (less :: pri ++ greater :: after) = .ok rest ↔
      Numeral pri ∧ pri.length ≤ 3 ∧ isUtf8 pri = true ∧ digitsValue pri ≤ 191 ∧ rest = after := by
  have hposition : position (· == greater) (less :: pri ++ greater :: after) = some (pri.length + 1) := by
    refine position_append after (by simp) fun b hb => ?_
    rcases List.mem_cons.mp hb with rfl | hb
    · rfl
    · exact beq_false_of_ne fun heq => hpri (heq ▸ hb)
  have hdrop : dropTo (less :: pri ++ greater :: after) (pri.length + 1 + 1) = .ok after :=
    dropTo_append_cons (less :: pri) greater after
  have hvalue : pri ≠ [] → (∀ b ∈ pri, isDigit b = true) →
      ((∃ p, parseU16 pri = some p ∧ p ≤ 191) ↔ digitsValue pri ≤ 191) := by
    intro hne hdigits
    constructor
    · rintro ⟨p, hp, hle⟩
      rw [← ((parseU16_digits hne hdigits).mp hp).1]
      exact hle
    · intro hle
      exact ⟨_, (parseU16_digits hne hdigits).mpr ⟨rfl, by omega⟩, hle⟩
  have hfirst : pri ≠ [] → ((∃ b, Scan.get pri 0 = .ok b ∧ b ≠ zero) ↔ pri.head? ≠ some zero) := by
    intro hne
    obtain ⟨b, pri, rfl⟩ := List.exists_cons_of_ne_nil hne
    simp [Scan.get]
  simp only [priority, hposition, orReject_some, ok_bind, slice_cons_append, hdrop, bind_eq_ok,
    require_eq_ok, exists_const, bne_iff_ne, decide_eq_true_eq, List.all_eq_true]
  constructor
  · rintro ⟨-, hne, hlength, hdigits, h⟩
    split at h
    · simp only [bind_eq_ok, require_eq_ok, orReject_eq_ok, exists_const, bne_iff_ne,
        decide_eq_true_eq, Except.ok.injEq] at h
      obtain ⟨b, hb, hzero, hutf8, p, hp, hle, rfl⟩ := h
      exact ⟨⟨hne, hdigits, fun _ => (hfirst hne).mp ⟨b, hb, hzero⟩⟩, hlength, hutf8,
        (hvalue hne hdigits).mp ⟨p, hp, hle⟩, rfl⟩
    · rename_i hshort
      simp only [bind_eq_ok, require_eq_ok, orReject_eq_ok, exists_const, decide_eq_true_eq,
        Except.ok.injEq] at h
      obtain ⟨hutf8, p, hp, hle, rfl⟩ := h
      exact ⟨⟨hne, hdigits, fun hlong => absurd hlong hshort⟩, hlength, hutf8,
        (hvalue hne hdigits).mp ⟨p, hp, hle⟩, rfl⟩
  · rintro ⟨⟨hne, hdigits, hlead⟩, hlength, hutf8, hle, rfl⟩
    obtain ⟨p, hp, hle⟩ := (hvalue hne hdigits).mpr hle
    refine ⟨rfl, hne, hlength, hdigits, ?_⟩
    split
    · rename_i hlong
      obtain ⟨b, hb, hzero⟩ := (hfirst hne).mpr (hlead hlong)
      have hnonzero : (b != zero) = true := by simpa using hzero
      simp [hb, hnonzero, hutf8, hp, hle]
    · simp [hutf8, hp, hle]

theorem priority_eq_ok {m rest : Bytes} :
    priority m = .ok rest ↔ ∃ n ≤ 191, m = less :: decimal n ++ greater :: rest := by
  constructor
  · intro h
    have hshape := h
    simp only [priority, bind_eq_ok, require_eq_ok, orReject_eq_ok, exists_const, beq_iff_eq] at hshape
    obtain ⟨hhead, end_, hend, -⟩ := hshape
    obtain ⟨before, hit, after, rfl, -, hhit, hbefore⟩ := position_eq_some.mp hend
    obtain rfl : hit = greater := by simpa using hhit
    cases before with
    | nil => cases hhead
    | cons b pri =>
        obtain rfl : b = less := by simpa using hhead
        have hpri : greater ∉ pri := by
          intro hin
          have := hbefore greater (List.mem_cons_of_mem _ hin)
          simp at this
        obtain ⟨hnumeral, -, -, hle, rfl⟩ := (priority_of_split hpri).mp h
        exact ⟨_, hle, by rw [decimal_digitsValue hnumeral]⟩
  · rintro ⟨n, hn, rfl⟩
    have hnumeral := (decimal_numeral n).1
    have hpri : greater ∉ decimal n := fun hin => absurd (hnumeral.digits greater hin) (by decide)
    rw [priority_of_split hpri, digitsValue_decimal]
    exact ⟨hnumeral, decimal_length_le (by omega), isUtf8_asBytes _, hn, rfl⟩

/-- Fields without a space, each followed by one. -/
def renderFields (fields : List Bytes) : Bytes := fields.flatMap fun field => field ++ [space]

theorem headerFields_eq_ok {count : Nat} {s rest : Bytes} {fields : List Bytes} :
    headerFields count s = .ok (fields, rest) ↔
      fields.length = count ∧ (∀ field ∈ fields, space ∉ field) ∧ s = renderFields fields ++ rest := by
  induction count generalizing s fields with
  | zero =>
      simp only [headerFields, pure, Except.pure, Except.ok.injEq, Prod.mk.injEq, List.length_eq_zero_iff]
      constructor
      · rintro ⟨rfl, rfl⟩
        exact ⟨rfl, by simp, rfl⟩
      · rintro ⟨rfl, -, rfl⟩
        exact ⟨rfl, rfl⟩
  | succ count ih =>
      constructor
      · intro h
        simp only [headerFields, bind_eq_ok, orReject_eq_ok] at h
        obtain ⟨n, hn, field, hfield, rest', hrest', ⟨fields', rest''⟩, hfields, hresult⟩ := h
        obtain ⟨before, hit, after, rfl, rfl, hhit, hbefore⟩ := position_eq_some.mp hn
        obtain rfl : hit = space := by simpa using hhit
        rw [takeTo_append] at hfield
        rw [dropTo_append_cons] at hrest'
        cases hfield
        cases hrest'
        cases hresult
        obtain ⟨hlength, hspaces, rfl⟩ := ih.mp hfields
        refine ⟨by rw [List.length_cons, hlength], fun field hfield => ?_, ?_⟩
        · rcases List.mem_cons.mp hfield with rfl | hfield
          · intro hin
            have := hbefore space hin
            simp at this
          · exact hspaces field hfield
        · simp [renderFields]
      · rintro ⟨hlength, hspaces, rfl⟩
        cases fields with
        | nil => cases hlength
        | cons field fields =>
            have hsplit : renderFields (field :: fields) ++ rest =
                field ++ space :: (renderFields fields ++ rest) := by
              simp [renderFields]
            have hposition : position (· == space) (field ++ space :: (renderFields fields ++ rest)) =
                some field.length := by
              refine position_append _ (by simp) fun b hb => ?_
              exact beq_false_of_ne fun heq => hspaces field List.mem_cons_self (heq ▸ hb)
            have hfields := ih.mpr ⟨Nat.succ.inj hlength,
              fun f hf => hspaces f (List.mem_cons_of_mem _ hf), rfl⟩
            rw [hsplit, headerFields, hposition]
            simp only [orReject_some, ok_bind, takeTo_append, dropTo_append_cons, hfields]
            rfl

end SyslogDtlsAgent
