import SyslogDtlsAgent.Proof.Net.Grammar

/-!
# The address parser against the grammar

Each reader takes a longest prefix. Soundness says that what it took derives from the grammar,
completeness that a derivation is taken whole if nothing that could go on with it follows. The parser
tries octets before a group at every place, so both need that a group is never the start of octets.
-/

namespace SyslogDtlsAgent

open AddrParser

/-! ### Numbers -/

/-- No digit follows. -/
def NoDigit (radix : Nat) (rest : List Char) : Prop := ∀ c cs, rest = c :: cs → toDigit radix c = none

theorem takeDigits_append {radix : Nat} {text rest : List Char} {digits : List Nat}
    (htext : text.map (toDigit radix) = digits.map some) (hrest : NoDigit radix rest) :
    takeDigits radix (text ++ rest) = (digits, rest) := by
  induction text generalizing digits with
  | nil =>
      obtain rfl : digits = [] := List.map_eq_nil_iff.mp htext.symm
      cases rest with
      | nil => rfl
      | cons c cs => simp only [List.nil_append, takeDigits, hrest c cs rfl]
  | cons c text ih =>
      cases digits with
      | nil => cases htext
      | cons d digits =>
          obtain ⟨hc, htext⟩ := List.cons.inj htext
          simp only [List.cons_append, takeDigits, hc, ih htext]

theorem takeDigits_spec (radix : Nat) (s : List Char) :
    ∃ text, s = text ++ (takeDigits radix s).2 ∧
      text.map (toDigit radix) = (takeDigits radix s).1.map some ∧ NoDigit radix (takeDigits radix s).2 := by
  induction s with
  | nil => exact ⟨[], rfl, rfl, by rintro c cs ⟨⟩⟩
  | cons c s ih =>
      obtain ⟨text, hs, htext, hrest⟩ := ih
      cases hc : toDigit radix c with
      | none =>
          simp only [takeDigits, hc]
          refine ⟨[], rfl, rfl, ?_⟩
          rintro c' cs ⟨⟩
          exact hc
      | some d =>
          simp only [takeDigits, hc]
          exact ⟨c :: text, congrArg (c :: ·) hs, by simp [hc, htext], hrest⟩

/-- What `readNumber` asks of the digits. -/
structure Admits (maxDigits : Option Nat) (allowZeroPrefix : Bool) (max value : Nat) (text : List Char) : Prop where
  length : ∀ m, maxDigits = some m → text.length ≤ m
  leading : allowZeroPrefix = false → 1 < text.length → text.head? ≠ some '0'
  range : value ≤ max

theorem readNumber_append {radix : Nat} {maxDigits : Option Nat} {allowZeroPrefix : Bool} {max value : Nat}
    {text rest : List Char} (h : Digits radix value text) (hadmits : Admits maxDigits allowZeroPrefix max value text)
    (hrest : NoDigit radix rest) :
    readNumber radix maxDigits allowZeroPrefix max (text ++ rest) = some (value, rest) := by
  obtain ⟨digits, hne, htext, hvalue⟩ := h
  have hlength : digits.length = text.length := by
    simpa using (congrArg List.length htext).symm
  have htext_ne : text ≠ [] := by
    rintro rfl
    exact hne (List.map_eq_nil_iff.mp htext.symm)
  have hshort : ¬ maxDigits.any (fun m => decide (m < digits.length)) = true := by
    cases hm : maxDigits with
    | none => simp
    | some m =>
        have := hadmits.length m hm
        simp [hlength, this]
  have hzero : ¬ (!allowZeroPrefix && (text ++ rest).head? == some '0' && decide (1 < digits.length)) = true := by
    rw [List.head?_append_of_ne_nil _ htext_ne, hlength]
    simp only [Bool.and_eq_true, Bool.not_eq_true', beq_iff_eq, decide_eq_true_eq]
    rintro ⟨⟨hstrict, hhead⟩, hlong⟩
    exact hadmits.leading hstrict hlong hhead
  have hmax : ¬ max < value := Nat.not_lt.mpr hadmits.range
  simp only [readNumber, takeDigits_append htext hrest]
  rw [if_neg hshort, if_neg hne, if_neg hzero, show digits.foldl (fun acc d => acc * radix + d) 0 = value from hvalue,
    if_neg hmax]

theorem readNumber_eq_some {radix : Nat} {maxDigits : Option Nat} {allowZeroPrefix : Bool} {max value : Nat}
    {s rest : List Char} (h : readNumber radix maxDigits allowZeroPrefix max s = some (value, rest)) :
    ∃ text, s = text ++ rest ∧ Digits radix value text ∧ Admits maxDigits allowZeroPrefix max value text ∧
      NoDigit radix rest := by
  obtain ⟨text, hs, htext, hrest⟩ := takeDigits_spec radix s
  simp only [readNumber] at h
  split_ifs at h with hshort hne hzero hmax
  obtain ⟨rfl, rfl⟩ := Prod.mk.inj (Option.some.inj h)
  have hlength : (takeDigits radix s).1.length = text.length := by
    simpa using (congrArg List.length htext).symm
  have htext_ne : text ≠ [] := by
    rintro rfl
    exact hne (List.map_eq_nil_iff.mp htext.symm)
  refine ⟨text, hs, ⟨_, hne, htext, rfl⟩, ⟨fun m hm => ?_, fun hstrict hlong hhead => ?_, Nat.not_lt.mp hmax⟩, hrest⟩
  · simpa [hm, hlength] using hshort
  · refine hzero ?_
    rw [hs, List.head?_append_of_ne_nil _ htext_ne, hhead, hstrict, ← hs, hlength]
    simpa using hlong

theorem readNumber_iff {radix : Nat} {maxDigits : Option Nat} {allowZeroPrefix : Bool} {max value : Nat}
    {s rest : List Char} :
    readNumber radix maxDigits allowZeroPrefix max s = some (value, rest) ↔
      ∃ text, s = text ++ rest ∧ Digits radix value text ∧ Admits maxDigits allowZeroPrefix max value text ∧
        NoDigit radix rest := by
  refine ⟨readNumber_eq_some, ?_⟩
  rintro ⟨text, rfl, h, hadmits, hrest⟩
  exact readNumber_append h hadmits hrest

theorem readGivenChar_eq_some {c : Char} {s rest : List Char} {u : Unit} :
    readGivenChar c s = some (u, rest) ↔ s = c :: rest := by
  cases s with
  | nil => simp [readGivenChar]
  | cons d s =>
      by_cases hd : d = c
      · simp [readGivenChar, hd]
      · simp [readGivenChar, hd]

@[simp] theorem readSeparator_zero {α : Type} (sep : Char) (inner : Reader α) (s : List Char) :
    readSeparator sep 0 inner s = inner s := rfl

theorem readSeparator_eq_some {α : Type} {sep : Char} {index : Nat} {inner : Reader α} {s rest : List Char} {a : α}
    (hindex : index ≠ 0) :
    readSeparator sep index inner s = some (a, rest) ↔ ∃ t, s = sep :: t ∧ inner t = some (a, rest) := by
  rw [readSeparator, if_neg hindex]
  simp only [bind, Option.bind_eq_some_iff, Prod.exists, readGivenChar_eq_some]
  simp

/-! ### Octets -/

theorem octet_iff {value : Nat} {text : List Char} :
    Octet value text ↔ Digits 10 value text ∧ Admits (some 3) false 255 value text := by
  constructor
  · intro h
    exact ⟨h.digits, by rintro m ⟨⟩; exact h.length, fun _ => h.leading, h.range⟩
  · rintro ⟨h, hadmits⟩
    exact ⟨h, hadmits.length 3 rfl, hadmits.leading rfl, hadmits.range⟩

theorem noDigit_cons {radix : Nat} {c : Char} {rest : List Char} (h : toDigit radix c = none) :
    NoDigit radix (c :: rest) := by
  rintro c' cs ⟨⟩
  exact h

theorem readOctet_iff {value : Nat} {s rest : List Char} :
    readNumber 10 (some 3) false 255 s = some (value, rest) ↔
      ∃ text, s = text ++ rest ∧ Octet value text ∧ NoDigit 10 rest := by
  simp only [readNumber_iff, octet_iff, and_assoc]

theorem readIpv4Addr_iff {bits : BitVec 32} {s rest : List Char} :
    readIpv4Addr s = some (bits, rest) ↔ ∃ text, s = text ++ rest ∧ Ipv4Text bits text ∧ NoDigit 10 rest := by
  simp only [readIpv4Addr, bind, pure, Option.bind_eq_some_iff, Prod.exists, readSeparator_zero,
    readSeparator_eq_some (show 1 ≠ 0 by decide), readSeparator_eq_some (show 2 ≠ 0 by decide),
    readSeparator_eq_some (show 3 ≠ 0 by decide), readOctet_iff, Option.some.injEq, Prod.mk.injEq]
  constructor
  · rintro ⟨a, s1, ⟨s, rfl, ha, -⟩, b, s2, ⟨t1, rfl, t, rfl, hb, -⟩, c, s3, ⟨u1, rfl, u, rfl, hc, -⟩, d, s4,
      ⟨v1, rfl, v, rfl, hd, hrest⟩, rfl, rfl⟩
    exact ⟨_, by simp, .octets ha hb hc hd, hrest⟩
  · rintro ⟨text, rfl, @⟨a, b, c, d, s, t, u, v, ha, hb, hc, hd⟩, hrest⟩
    have hdot : ∀ {cs}, NoDigit 10 ('.' :: cs) := noDigit_cons rfl
    refine ⟨a, '.' :: (t ++ '.' :: (u ++ '.' :: (v ++ rest))), ⟨s, ?_, ha, hdot⟩, b, '.' :: (u ++ '.' :: (v ++ rest)),
      ⟨_, rfl, t, rfl, hb, hdot⟩, c, '.' :: (v ++ rest), ⟨_, rfl, u, rfl, hc, hdot⟩, d, rest,
      ⟨_, rfl, v, rfl, hd, hrest⟩, rfl, rfl⟩
    simp only [List.append_assoc, List.cons_append]

/-! ### Groups -/

theorem readGroup_iff {s rest : List Char} {value : Nat} :
    readNumber 16 (some 4) true 0xffff s = some (value, rest) ↔
      ∃ text, s = text ++ rest ∧ (Digits 16 value text ∧ text.length ≤ 4) ∧ NoDigit 16 rest := by
  rw [readNumber_iff]
  refine exists_congr fun text => and_congr_right fun _ => ⟨fun ⟨h, hadmits, hrest⟩ => ?_, fun ⟨⟨h, hlength⟩, hrest⟩ => ?_⟩
  · exact ⟨⟨h, hadmits.length 4 rfl⟩, hrest⟩
  · have hvalue : value < 16 ^ 4 := h.value_lt.trans_le (Nat.pow_le_pow_right (by decide) hlength)
    refine ⟨h, ⟨by rintro m ⟨⟩; exact hlength, nofun, by omega⟩, hrest⟩

/-- What stands in front of the group at a place. -/
def separator (index : Nat) : List Char := if index = 0 then [] else [':']

theorem readSeparator_colon {α : Type} {index : Nat} {inner : Reader α} {s rest : List Char} {a : α} :
    readSeparator ':' index inner s = some (a, rest) ↔ ∃ t, s = separator index ++ t ∧ inner t = some (a, rest) := by
  by_cases hindex : index = 0
  · simp [hindex, separator]
  · simp [readSeparator_eq_some hindex, separator, hindex]

/-- The start of octets is not a group: a dot follows its digits. -/
theorem readIpv4Addr_group {value : Nat} {text rest : List Char} (h : Digits 16 value text)
    (hrest : NoDigit 16 rest) (hdot : rest.head? ≠ some '.') : readIpv4Addr (text ++ rest) = none := by
  rw [Option.eq_none_iff_forall_ne_some]
  rintro ⟨bits, rest'⟩ hread
  obtain ⟨_, hsame, @⟨_, _, _, _, s, t, u, v, ha, -, -, -⟩, -⟩ := readIpv4Addr_iff.mp hread
  obtain ⟨_, digits', -, htext', -⟩ := ha.digits.hex
  obtain ⟨digits, -, htext, -⟩ := h
  have hleft := takeDigits_append htext hrest
  have hright := takeDigits_append htext' (@noDigit_cons _ '.' (t ++ '.' :: (u ++ '.' :: v) ++ rest') rfl)
  rw [hsame, List.append_assoc, List.cons_append, hright] at hleft
  exact hdot (by rw [← (Prod.mk.inj hleft).2]; rfl)

theorem NoDigit.decimal {rest : List Char} (h : NoDigit 16 rest) : NoDigit 10 rest := by
  intro c cs hrest
  cases hc : toDigit 10 c with
  | none => rfl
  | some d => exact absurd (h c cs hrest) (by rw [toDigit_hex hc]; exact Option.some_ne_none d)

theorem readIpv4Addr_noDigit {s : List Char} (h : NoDigit 16 s) : readIpv4Addr s = none := by
  rw [Option.eq_none_iff_forall_ne_some]
  rintro ⟨bits, rest⟩ hread
  obtain ⟨_, rfl, ⟨ha, -, -, -⟩, -⟩ := readIpv4Addr_iff.mp hread
  obtain ⟨c, cs, rfl⟩ := List.exists_cons_of_ne_nil ha.digits.ne_nil
  have hc := ha.digits.isSome List.mem_cons_self
  rw [h.decimal c _ rfl] at hc
  cases hc

theorem readGroup_noDigit {s : List Char} (h : NoDigit 16 s) : readNumber 16 (some 4) true 0xffff s = none := by
  rw [Option.eq_none_iff_forall_ne_some]
  rintro ⟨value, rest⟩ hread
  obtain ⟨_, rfl, ⟨hdigits, -⟩, -⟩ := readGroup_iff.mp hread
  obtain ⟨c, cs, rfl⟩ := List.exists_cons_of_ne_nil hdigits.ne_nil
  have hc := hdigits.isSome List.mem_cons_self
  rw [h c _ rfl] at hc
  cases hc

/-- What may follow groups: nothing that would go on with the last one, and a colon only in front of another
colon. -/
structure GroupsEnd (rest : List Char) : Prop where
  noDigit : NoDigit 16 rest
  noDot : rest.head? ≠ some '.'
  colon : ∀ cs, rest = ':' :: cs → NoDigit 16 cs

theorem readSeparator_none {α : Type} {index : Nat} {inner : Reader α} {s : List Char}
    (h : ∀ t, s = separator index ++ t → inner t = none) : readSeparator ':' index inner s = none := by
  rw [Option.eq_none_iff_forall_ne_some]
  rintro ⟨a, rest⟩ hread
  obtain ⟨t, hs, ht⟩ := readSeparator_colon.mp hread
  rw [h t hs] at ht
  cases ht

/-- Reading stops where no group begins. -/
theorem readGroups_stop (limit left : Nat) {s : List Char}
    (h : ∀ t, s = separator (limit - left) ++ t → NoDigit 16 t) : readGroups limit left s = ([], false, s) := by
  cases left with
  | zero => rfl
  | succ left =>
      have hoctets : readSeparator ':' (limit - (left + 1)) readIpv4Addr s = none :=
        readSeparator_none fun t ht => readIpv4Addr_noDigit (h t ht)
      have hgroup : readSeparator ':' (limit - (left + 1)) (readNumber 16 (some 4) true 0xffff) s = none :=
        readSeparator_none fun t ht => readGroup_noDigit (h t ht)
      simp only [readGroups, hoctets, ite_self, hgroup]

theorem GroupsEnd.stop {rest : List Char} (h : GroupsEnd rest) {limit left : Nat} (hleft : left < limit) :
    readGroups limit left rest = ([], false, rest) := by
  refine readGroups_stop limit left fun t ht => ?_
  rw [separator, if_neg (by omega)] at ht
  exact h.colon t ht

/-- One group, in front of what the rest is read as. -/
theorem readGroups_group {limit left value : Nat} {text rest : List Char} (h : Digits 16 value text)
    (hlength : text.length ≤ 4) (hrest : NoDigit 16 rest) (hdot : rest.head? ≠ some '.') :
    readGroups limit (left + 1) (separator (limit - (left + 1)) ++ (text ++ rest)) =
      (BitVec.ofNat 16 value :: (readGroups limit left rest).1, (readGroups limit left rest).2) := by
  have hoctets : readSeparator ':' (limit - (left + 1)) readIpv4Addr
      (separator (limit - (left + 1)) ++ (text ++ rest)) = none :=
    readSeparator_none fun t ht => List.append_cancel_left ht ▸ readIpv4Addr_group h hrest hdot
  have hgroup : readSeparator ':' (limit - (left + 1)) (readNumber 16 (some 4) true 0xffff)
      (separator (limit - (left + 1)) ++ (text ++ rest)) = some (value, rest) :=
    readSeparator_colon.mpr ⟨_, rfl, readGroup_iff.mpr ⟨text, rfl, ⟨h, hlength⟩, hrest⟩⟩
  simp only [readGroups, hoctets, ite_self, hgroup]

theorem readGroups_append {limit left : Nat} {isV4 : Bool} {groups : List (BitVec 16)} {text rest : List Char}
    (h : Groups isV4 groups text) (hlength : groups.length ≤ left) (hleft : left ≤ limit) (hrest : GroupsEnd rest) :
    readGroups limit left (separator (limit - left) ++ (text ++ rest)) = (groups, isV4, rest) := by
  induction h generalizing left with
  | single hgroup =>
      cases left with
      | zero => cases hlength
      | succ left =>
          obtain ⟨hdigits, hshort⟩ := hgroup
          rw [readGroups_group hdigits hshort hrest.noDigit hrest.noDot, hrest.stop hleft]
  | @dotted bits text hoctets =>
      cases left with
      | zero => cases hlength
      | succ left =>
          have hread : readSeparator ':' (limit - (left + 1)) readIpv4Addr
              (separator (limit - (left + 1)) ++ (text ++ rest)) = some (bits, rest) :=
            readSeparator_colon.mpr ⟨_, rfl, readIpv4Addr_iff.mpr ⟨text, rfl, hoctets, hrest.noDigit.decimal⟩⟩
          have hplace : limit - (left + 1) + 1 < limit := by
            simp only [List.length_cons, List.length_nil] at hlength
            omega
          simp only [readGroups, hplace, if_true, hread]
  | @cons group text more isV4 groups hgroup hmore ih =>
      cases left with
      | zero => cases hlength
      | succ left =>
          obtain ⟨hdigits, hshort⟩ := hgroup
          have hplace : separator (limit - left) = [':'] := if_neg (by omega)
          have hnext := ih (Nat.le_of_succ_le_succ hlength) (by omega)
          rw [hplace, List.singleton_append] at hnext
          rw [List.append_assoc, List.cons_append,
            readGroups_group hdigits hshort (noDigit_cons rfl) (by simp), hnext]

/-- Reading from the first place. -/
theorem readGroups_first {limit : Nat} {isV4 : Bool} {groups : List (BitVec 16)} {text rest : List Char}
    (h : MaybeGroups isV4 groups text) (hlength : groups.length ≤ limit) (hrest : GroupsEnd rest) :
    readGroups limit limit (text ++ rest) = (groups, isV4, rest) := by
  have hplace : separator (limit - limit) = [] := if_pos (Nat.sub_self limit)
  cases h with
  | none =>
      refine readGroups_stop limit limit fun t ht => ?_
      rw [hplace] at ht
      obtain rfl : rest = t := ht
      exact hrest.noDigit
  | some hgroups =>
      have hread := readGroups_append hgroups hlength (Nat.le_refl limit) hrest
      rwa [hplace, List.nil_append] at hread

theorem readGroups_spec {limit left : Nat} {isV4 : Bool} {groups : List (BitVec 16)} {s rest : List Char}
    (hleft : left ≤ limit) (h : readGroups limit left s = (groups, isV4, rest)) :
    groups.length ≤ left ∧ ((groups = [] ∧ isV4 = false ∧ s = rest) ∨
      ∃ text, Groups isV4 groups text ∧ s = separator (limit - left) ++ (text ++ rest)) := by
  induction left generalizing s groups with
  | zero =>
      cases h
      exact ⟨Nat.le_refl 0, .inl ⟨rfl, rfl, rfl⟩⟩
  | succ left ih =>
      simp only [readGroups] at h
      split at h
      · rename_i bits rest' hembedded
        cases h
        split_ifs at hembedded with hplace
        obtain ⟨t, rfl, hread⟩ := readSeparator_colon.mp hembedded
        obtain ⟨text, rfl, hoctets, -⟩ := readIpv4Addr_iff.mp hread
        exact ⟨by simp only [List.length_cons, List.length_nil]; omega, .inr ⟨text, .dotted hoctets, rfl⟩⟩
      · split at h
        · rename_i value rest' hgroup
          obtain ⟨t, rfl, hread⟩ := readSeparator_colon.mp hgroup
          obtain ⟨text, rfl, ⟨hdigits, hshort⟩, -⟩ := readGroup_iff.mp hread
          generalize hmore : readGroups limit left rest' = more at h
          obtain ⟨groups', isV4', rest''⟩ := more
          cases h
          obtain ⟨hlength, ⟨rfl, rfl, rfl⟩ | ⟨text', hgroups, rfl⟩⟩ := ih (by omega) hmore
          · exact ⟨by simp, .inr ⟨text, .single ⟨hdigits, hshort⟩, rfl⟩⟩
          · have hplace : separator (limit - left) = [':'] := if_neg (by omega)
            refine ⟨Nat.succ_le_succ hlength, .inr ⟨_, .cons ⟨hdigits, hshort⟩ hgroups, ?_⟩⟩
            rw [hplace]
            simp only [List.append_assoc, List.cons_append, List.nil_append]
        · cases h
          exact ⟨Nat.zero_le _, .inl ⟨rfl, rfl, rfl⟩⟩

theorem readGroups_first_spec {limit : Nat} {isV4 : Bool} {groups : List (BitVec 16)} {s rest : List Char}
    (h : readGroups limit limit s = (groups, isV4, rest)) :
    groups.length ≤ limit ∧ ∃ text, MaybeGroups isV4 groups text ∧ s = text ++ rest := by
  obtain ⟨hlength, ⟨rfl, rfl, rfl⟩ | ⟨text, hgroups, rfl⟩⟩ := readGroups_spec (Nat.le_refl limit) h
  · exact ⟨hlength, [], .none, rfl⟩
  · exact ⟨hlength, text, .some hgroups, by rw [separator, if_pos (Nat.sub_self limit), List.nil_append]⟩

/-! ### IPv6 addresses -/

theorem readIpv6Addr_spec {bits : BitVec 128} {s rest : List Char} (h : readIpv6Addr s = some (bits, rest)) :
    ∃ text, s = text ++ rest ∧ Ipv6Text bits text := by
  rcases hhead : readGroups 8 8 s with ⟨head, isV4, after⟩
  obtain ⟨hlength, before, hbefore, rfl⟩ := readGroups_first_spec hhead
  simp only [readIpv6Addr, hhead, bind, pure] at h
  split_ifs at h with hfull hoctets
  · obtain ⟨rfl, rfl⟩ := Prod.mk.inj (Option.some.inj h)
    cases hbefore with
    | none => cases hfull
    | some hgroups => exact ⟨before, rfl, .full hgroups hfull⟩
  · obtain rfl : isV4 = false := by simpa using hoctets
    simp only [Option.bind_eq_some_iff, Prod.exists, readGivenChar_eq_some, Option.some.injEq, Prod.mk.injEq] at h
    obtain ⟨-, _, rfl, -, s', rfl, hbits, hrest⟩ := h
    rcases htail : readGroups (8 - (head.length + 1)) (8 - (head.length + 1)) s' with ⟨tail, isV4', rest'⟩
    obtain ⟨hlength', after, hafter, rfl⟩ := readGroups_first_spec htail
    simp only [htail] at hbits hrest
    subst hbits hrest
    refine ⟨_, ?_, .compressed hbefore hafter (by omega)⟩
    simp only [List.append_assoc, List.cons_append]

/-- Nothing that would go on with an address follows. -/
structure AddrEnd (rest : List Char) : Prop where
  noDigit : NoDigit 16 rest
  noDot : rest.head? ≠ some '.'
  noColon : rest.head? ≠ some ':'

theorem AddrEnd.groups {rest : List Char} (h : AddrEnd rest) : GroupsEnd rest where
  noDigit := h.noDigit
  noDot := h.noDot
  colon _ hcs := absurd (congrArg List.head? hcs) h.noColon

theorem groupsEnd_colons (rest : List Char) : GroupsEnd (':' :: ':' :: rest) where
  noDigit := noDigit_cons rfl
  noDot := by simp
  colon := by
    rintro cs ⟨⟩
    exact noDigit_cons rfl

theorem readIpv6Addr_append {bits : BitVec 128} {text rest : List Char} (h : Ipv6Text bits text) (hrest : AddrEnd rest) :
    readIpv6Addr (text ++ rest) = some (bits, rest) := by
  cases h with
  | full hgroups hlength =>
      have hread := readGroups_first (.some hgroups) hlength.le hrest.groups
      simp only [readIpv6Addr, hread, hlength, if_true, bind, pure]
  | @compressed isV4 head tail before after hhead htail hlength =>
      have hread : readGroups 8 8 (before ++ (':' :: ':' :: (after ++ rest))) =
          (head, false, ':' :: ':' :: (after ++ rest)) :=
        readGroups_first hhead (by omega) (groupsEnd_colons _)
      have hread' : readGroups (8 - (head.length + 1)) (8 - (head.length + 1)) (after ++ rest) = (tail, isV4, rest) :=
        readGroups_first htail (by omega) hrest.groups
      have hshort : ¬ head.length = 8 := by omega
      have hgiven : ∀ cs, readGivenChar ':' (':' :: cs) = some ((), cs) := fun cs => readGivenChar_eq_some.mpr rfl
      rw [List.append_assoc, List.cons_append, List.cons_append]
      simp only [readIpv6Addr, hread, hshort, if_false, bind, pure, hgiven, Option.bind_some, hread', Bool.false_eq_true]

/-! ### Socket addresses -/

/-- An IP address as a host is written: octets, or groups in brackets. -/
inductive Literal : IpAddr → List Char → Prop where
  | v4 {bits : BitVec 32} {text : List Char} (h : Ipv4Text bits text) : Literal (.v4 bits) text
  | v6 {bits : BitVec 128} {text : List Char} (h : Ipv6Text bits text) : Literal (.v6 bits) ('[' :: (text ++ [']']))

/-- A literal, with a numeric zone inside the brackets if there is one. A zone is no part of the address. -/
inductive ZonedLiteral : IpAddr → List Char → Prop where
  | plain {ip : IpAddr} {text : List Char} (h : Literal ip text) : ZonedLiteral ip text
  | zoned {bits : BitVec 128} {zone : Nat} {text digits : List Char} (h : Ipv6Text bits text)
      (hzone : Digits 10 zone digits) : ZonedLiteral (.v6 bits) ('[' :: (text ++ '%' :: (digits ++ [']'])))

theorem noDigit_nil (radix : Nat) : NoDigit radix [] := by
  rintro c cs ⟨⟩

theorem readPort_iff {port : Nat} {s : List Char} :
    readPort s = some (port, []) ↔ ∃ digits, s = ':' :: digits ∧ Digits 10 port digits ∧ port ≤ 65535 := by
  simp only [readPort, bind, Option.bind_eq_some_iff, Prod.exists, readGivenChar_eq_some, readNumber_iff]
  constructor
  · rintro ⟨-, _, rfl, digits, rfl, h, hadmits, -⟩
    exact ⟨digits, by simp, h, hadmits.range⟩
  · rintro ⟨digits, rfl, h, hport⟩
    exact ⟨(), digits, rfl, digits, by simp, h, ⟨nofun, nofun, hport⟩, noDigit_nil 10⟩

theorem readSocketAddrV4_iff {address : SocketAddr} {s : List Char} :
    readSocketAddrV4 s = some (address, []) ↔ ∃ bits port text digits, address = ⟨.v4 bits, port⟩ ∧
      s = text ++ ':' :: digits ∧ Ipv4Text bits text ∧ Digits 10 port digits ∧ port ≤ 65535 := by
  simp only [readSocketAddrV4, bind, pure, Option.bind_eq_some_iff, Prod.exists, readIpv4Addr_iff, Option.some.injEq,
    Prod.mk.injEq]
  constructor
  · rintro ⟨bits, _, ⟨text, rfl, htext, -⟩, port, _, hport, rfl, rfl⟩
    obtain ⟨digits, rfl, hdigits, hrange⟩ := readPort_iff.mp hport
    exact ⟨bits, port, text, digits, rfl, rfl, htext, hdigits, hrange⟩
  · rintro ⟨bits, port, text, digits, rfl, rfl, htext, hdigits, hrange⟩
    exact ⟨bits, ':' :: digits, ⟨text, rfl, htext, noDigit_cons rfl⟩, port, [],
      readPort_iff.mpr ⟨digits, rfl, hdigits, hrange⟩, rfl, rfl⟩

theorem readScopeId_spec {zone : Nat} {s rest : List Char} (h : readScopeId s = some (zone, rest)) :
    ∃ digits, s = '%' :: (digits ++ rest) ∧ Digits 10 zone digits := by
  simp only [readScopeId, bind, Option.bind_eq_some_iff, Prod.exists, readGivenChar_eq_some, readNumber_iff] at h
  obtain ⟨-, _, rfl, digits, rfl, hdigits, -, -⟩ := h
  exact ⟨digits, rfl, hdigits⟩

theorem readSocketAddrV6_spec {address : SocketAddr} {s : List Char} (h : readSocketAddrV6 s = some (address, [])) :
    ∃ name digits, s = name ++ ':' :: digits ∧ ZonedLiteral address.ip name ∧ Digits 10 address.port digits := by
  simp only [readSocketAddrV6, bind, pure, Option.bind_eq_some_iff, Prod.exists, readGivenChar_eq_some,
    Option.some.injEq, Prod.mk.injEq] at h
  obtain ⟨-, _, rfl, bits, s', hread, -, after, hclose, port, _, hport, rfl, rfl⟩ := h
  obtain ⟨text, rfl, htext⟩ := readIpv6Addr_spec hread
  obtain ⟨digits, rfl, hdigits, -⟩ := readPort_iff.mp hport
  cases hscope : readScopeId s' with
  | none =>
      obtain rfl : s' = ']' :: ':' :: digits := by simpa [hscope] using hclose
      exact ⟨_, digits, by simp, .plain (.v6 htext), hdigits⟩
  | some scope =>
      obtain ⟨zone, rest⟩ := scope
      obtain rfl : rest = ']' :: ':' :: digits := by simpa [hscope] using hclose
      obtain ⟨zoneDigits, rfl, hzone⟩ := readScopeId_spec hscope
      exact ⟨_, digits, by simp, .zoned htext hzone, hdigits⟩

theorem readSocketAddrV6_literal {bits : BitVec 128} {port : Nat} {text digits : List Char} (htext : Ipv6Text bits text)
    (hdigits : Digits 10 port digits) (hport : port ≤ 65535) :
    readSocketAddrV6 ('[' :: (text ++ ']' :: ':' :: digits)) = some (⟨.v6 bits, port⟩, []) := by
  have hclose : AddrEnd (']' :: ':' :: digits) := ⟨noDigit_cons rfl, by simp, by simp⟩
  have hscope : readScopeId (']' :: ':' :: digits) = none := rfl
  have hread := readIpv6Addr_append htext hclose
  have hend := readPort_iff.mpr ⟨digits, rfl, hdigits, hport⟩
  have hgiven : ∀ c cs, readGivenChar c (c :: cs) = some ((), cs) := fun _ _ => readGivenChar_eq_some.mpr rfl
  simp only [readSocketAddrV6, bind, pure, hgiven, Option.bind_some, hread, hscope, Option.map_none, Option.getD_none,
    hend]

theorem parseWith_eq_some {α : Type} {inner : Reader α} {text : String} {a : α} :
    parseWith inner text = some a ↔ inner text.toList = some (a, []) := by
  unfold parseWith
  constructor
  · intro h
    split at h
    · rename_i value hread
      rw [hread, Option.some.inj h]
    · cases h
  · intro h
    rw [h]

/-- What the parser takes for a socket address is an address and a port. -/
theorem parseSocketAddr_spec {host : String} {address : SocketAddr} (h : parseSocketAddr host = some address) :
    ∃ name digits, host.toList = name ++ ':' :: digits ∧ ZonedLiteral address.ip name ∧
      Digits 10 address.port digits := by
  have hread := parseWith_eq_some.mp h
  cases hv4 : readSocketAddrV4 host.toList with
  | none =>
      rw [hv4] at hread
      exact readSocketAddrV6_spec hread
  | some read =>
      rw [hv4] at hread
      obtain rfl := Option.some.inj hread
      obtain ⟨bits, port, text, digits, rfl, hhost, htext, hdigits, -⟩ := readSocketAddrV4_iff.mp hv4
      exact ⟨text, digits, hhost, .plain (.v4 htext), hdigits⟩

/-- The parser takes every address with every port. -/
theorem parseSocketAddr_literal {ip : IpAddr} {port : Nat} {name digits : List Char} (hname : Literal ip name)
    (hdigits : Digits 10 port digits) (hport : port ≤ 65535) :
    parseSocketAddr (String.ofList (name ++ ':' :: digits)) = some ⟨ip, port⟩ := by
  rw [parseSocketAddr, parseWith_eq_some, String.toList_ofList]
  cases hname with
  | @v4 bits text htext =>
      rw [readSocketAddrV4_iff.mpr ⟨bits, port, name, digits, rfl, rfl, htext, hdigits, hport⟩]
      rfl
  | @v6 bits text htext =>
      have hv4 : readSocketAddrV4 ('[' :: (text ++ ']' :: ':' :: digits)) = none := by
        have hnone : readIpv4Addr ('[' :: (text ++ ']' :: ':' :: digits)) = none :=
          readIpv4Addr_noDigit (noDigit_cons rfl)
        simp only [readSocketAddrV4, hnone, bind, Option.bind_none]
      rw [List.cons_append, List.append_assoc, List.singleton_append, hv4]
      exact readSocketAddrV6_literal htext hdigits hport

end SyslogDtlsAgent
