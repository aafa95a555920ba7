import SyslogDtlsAgent.Proof.Framing.Grammar

/-!
# Decimal numerals

`decimal` writes a number without leading zeros, `digitsValue` reads digits, and each undoes the
other.
-/

namespace SyslogDtlsAgent

open Library Byte

theorem digit_toNat {n : Nat} (h : n < 10) : (digit n).toNat = 48 + n := by
  rw [digit, UInt8.toNat_ofNat']
  omega

theorem isDigit_iff {b : UInt8} : isDigit b = true ↔ 48 ≤ b.toNat ∧ b.toNat ≤ 57 := by
  simp only [isDigit, Bool.and_eq_true, decide_eq_true_eq, UInt8.le_iff_toNat_le]
  rfl

theorem isDigit_digit {n : Nat} (h : n < 10) : isDigit (digit n) = true := by
  rw [isDigit_iff, digit_toNat h]
  omega

/-- A digit is the digit of its value. -/
theorem digit_of_isDigit {b : UInt8} (h : isDigit b = true) : digit (b.toNat - 48) = b := by
  rw [isDigit_iff] at h
  apply UInt8.toNat_inj.mp
  rw [digit_toNat (by omega)]
  omega

theorem utf8_digitChar {n : Nat} (h : n < 10) : String.utf8EncodeChar n.digitChar = [digit n] := by
  interval_cases n <;> rfl

theorem decimal_of_lt {n : Nat} (h : n < 10) : decimal n = [digit n] := by
  rw [decimal, asBytes, Nat.toString_eq_repr, Nat.toList_repr, Nat.toDigits_of_lt_base h]
  simp [utf8_digitChar h]

theorem decimal_of_le {n : Nat} (h : 10 ≤ n) : decimal n = decimal (n / 10) ++ [digit (n % 10)] := by
  simp only [decimal, asBytes, Nat.toString_eq_repr, Nat.toList_repr]
  rw [Nat.toDigits_of_base_le (by omega) h, List.flatMap_append]
  simp [utf8_digitChar (Nat.mod_lt n (by omega))]

/-- As many digits as the power of ten above the number. -/
theorem decimal_length_le {n k : Nat} (h : n < 10 ^ (k + 1)) : (decimal n).length ≤ k + 1 := by
  induction k generalizing n with
  | zero =>
      rw [decimal_of_lt (by omega), List.length_singleton]
  | succ k ih =>
      by_cases hsmall : n < 10
      · rw [decimal_of_lt hsmall, List.length_singleton]
        omega
      · have hfront : n / 10 < 10 ^ (k + 1) := by
          rw [pow_succ] at h
          omega
        have hlength := ih hfront
        rw [decimal_of_le (by omega), List.length_append, List.length_singleton]
        omega

theorem digitsValue_concat (digits : Bytes) (b : UInt8) :
    digitsValue (digits ++ [b]) = digitsValue digits * 10 + (b.toNat - 48) := by
  simp only [digitsValue, List.foldl_append, List.foldl_cons, List.foldl_nil]

/-- What a numeral looks like: digits, and no zero in front of another digit. -/
structure Numeral (text : Bytes) : Prop where
  nonempty : text ≠ []
  digits : ∀ b ∈ text, isDigit b = true
  leading : 1 < text.length → text.head? ≠ some zero

theorem digit_ne_zero {n : Nat} (h : n < 10) (hpos : 0 < n) : digit n ≠ zero := by
  intro hzero
  have := congrArg UInt8.toNat hzero
  rw [digit_toNat h] at this
  have : 48 + n = 48 := this
  omega

theorem decimal_numeral (n : Nat) : Numeral (decimal n) ∧ (0 < n → (decimal n).head? ≠ some zero) := by
  induction n using Nat.strongRecOn with
  | ind n ih =>
      by_cases h : n < 10
      · rw [decimal_of_lt h]
        refine ⟨⟨by simp, by simp [isDigit_digit h], by simp⟩, fun hpos => ?_⟩
        simpa using digit_ne_zero h hpos
      · obtain ⟨hnumeral, hhead⟩ := ih (n / 10) (by omega)
        have hfront : (decimal (n / 10) ++ [digit (n % 10)]).head? ≠ some zero := by
          rw [List.head?_append_of_ne_nil _ hnumeral.nonempty]
          exact hhead (by omega)
        rw [decimal_of_le (by omega)]
        refine ⟨⟨by simp, fun b hb => ?_, fun _ => hfront⟩, fun _ => hfront⟩
        rcases List.mem_append.mp hb with hb | hb
        · exact hnumeral.digits b hb
        · rw [List.mem_singleton.mp hb]
          exact isDigit_digit (Nat.mod_lt n (by omega))

theorem digitsValue_decimal (n : Nat) : digitsValue (decimal n) = n := by
  induction n using Nat.strongRecOn with
  | ind n ih =>
      by_cases h : n < 10
      · rw [decimal_of_lt h, digitsValue, List.foldl_cons, List.foldl_nil, digit_toNat h]
        omega
      · rw [decimal_of_le (by omega), digitsValue_concat, ih (n / 10) (by omega),
          digit_toNat (Nat.mod_lt n (by omega))]
        omega

theorem digitsValue_pos {text : Bytes} (hne : text ≠ []) (hdigits : ∀ b ∈ text, isDigit b = true)
    (hhead : text.head? ≠ some zero) : 0 < digitsValue text := by
  induction text using List.reverseRecOn with
  | nil => exact absurd rfl hne
  | append_singleton text b ih =>
      rw [digitsValue_concat]
      by_cases hnil : text = []
      · subst hnil
        have hb := isDigit_iff.mp (hdigits b (by simp))
        have hne : b.toNat ≠ 48 := fun heq => hhead (congrArg some (UInt8.toNat_inj.mp heq))
        omega
      · have hpos := ih hnil (fun c hc => hdigits c (List.mem_append_left _ hc))
          (by rwa [List.head?_append_of_ne_nil _ hnil] at hhead)
        omega

/-- A numeral is the numeral of its value. -/
theorem decimal_digitsValue {text : Bytes} (h : Numeral text) : decimal (digitsValue text) = text := by
  induction text using List.reverseRecOn with
  | nil => exact absurd rfl h.nonempty
  | append_singleton text b ih =>
      have hb : isDigit b = true := h.digits b (by simp)
      have hrange := isDigit_iff.mp hb
      rw [digitsValue_concat]
      by_cases hnil : text = []
      · subst hnil
        rw [digitsValue, List.foldl_nil, Nat.zero_mul, Nat.zero_add, decimal_of_lt (by omega),
          digit_of_isDigit hb, List.nil_append]
      · have hdigits : ∀ c ∈ text, isDigit c = true := fun c hc => h.digits c (List.mem_append_left _ hc)
        have hhead : text.head? ≠ some zero := by
          have hlength := List.length_pos_iff.mpr hnil
          have := h.leading (by rw [List.length_append, List.length_singleton]; omega)
          rwa [List.head?_append_of_ne_nil _ hnil] at this
        have hpos := digitsValue_pos hnil hdigits hhead
        have hdiv : (digitsValue text * 10 + (b.toNat - 48)) / 10 = digitsValue text := by omega
        have hmod : (digitsValue text * 10 + (b.toNat - 48)) % 10 = b.toNat - 48 := by omega
        rw [decimal_of_le (by omega), hdiv, hmod, ih ⟨hnil, hdigits, fun _ => hhead⟩, digit_of_isDigit hb]

end SyslogDtlsAgent
