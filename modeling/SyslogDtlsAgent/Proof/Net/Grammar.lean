import SyslogDtlsAgent.Core.Net

/-!
# The text of an address

The grammar of IP literals: four decimal octets, or eight groups of hexadecimal digits of which one run
may be left out and the last two may be written as octets. Nothing here reads a text; the parser and the
display function are compared with it.
-/

namespace SyslogDtlsAgent

open AddrParser

/-! ### Digits -/

/-- The number that digits stand for. -/
def digitsFold (radix : Nat) (digits : List Nat) : Nat := digits.foldl (fun acc d => acc * radix + d) 0

/-- One or more digits, and what they stand for. -/
def Digits (radix value : Nat) (text : List Char) : Prop :=
  ∃ digits : List Nat, digits ≠ [] ∧ text.map (toDigit radix) = digits.map some ∧
    digitsFold radix digits = value

theorem Digits.ne_nil {radix value : Nat} {text : List Char} (h : Digits radix value text) : text ≠ [] := by
  obtain ⟨digits, hne, htext, -⟩ := h
  rintro rfl
  exact hne (List.map_eq_nil_iff.mp htext.symm)

theorem Digits.isSome {radix value : Nat} {text : List Char} (h : Digits radix value text) {c : Char}
    (hc : c ∈ text) : (toDigit radix c).isSome = true := by
  obtain ⟨digits, -, htext, -⟩ := h
  have hmem : toDigit radix c ∈ digits.map some := htext ▸ List.mem_map_of_mem hc
  obtain ⟨d, -, hd⟩ := List.mem_map.mp hmem
  exact hd ▸ rfl

theorem Digits.single {radix d : Nat} {c : Char} (h : toDigit radix c = some d) : Digits radix d [c] :=
  ⟨[d], by simp, by simp [h], by simp [digitsFold]⟩

theorem Digits.concat {radix value d : Nat} {text : List Char} {c : Char} (h : Digits radix value text)
    (hc : toDigit radix c = some d) : Digits radix (value * radix + d) (text ++ [c]) := by
  obtain ⟨digits, -, htext, rfl⟩ := h
  exact ⟨digits ++ [d], by simp, by simp [htext, hc], by simp [digitsFold]⟩

theorem toDigit_lt {radix d : Nat} {c : Char} (h : toDigit radix c = some d) : d < radix := by
  unfold toDigit at h
  dsimp only at h
  generalize (if '0' ≤ c ∧ c ≤ '9' then c.toNat - '0'.toNat else _) = value at h
  split_ifs at h with hlt
  rwa [← Option.some.inj h]

theorem toDigit_hex {d : Nat} {c : Char} (h : toDigit 10 c = some d) : toDigit 16 c = some d := by
  unfold toDigit at h ⊢
  dsimp only at h ⊢
  split_ifs at h ⊢ <;> first | exact h | omega

/-- Decimal digits are hexadecimal digits. -/
theorem Digits.hex {value : Nat} {text : List Char} (h : Digits 10 value text) : ∃ value', Digits 16 value' text := by
  obtain ⟨digits, hne, htext, -⟩ := h
  refine ⟨_, digits, hne, ?_, rfl⟩
  apply List.ext_getElem?
  intro i
  have hi := congrArg (·[i]?) htext
  simp only [List.getElem?_map] at hi ⊢
  cases hc : text[i]? with
  | none => simpa [hc] using hi
  | some c =>
      cases hd : digits[i]? with
      | none => simp [hc, hd] at hi
      | some d =>
          simp only [hc, hd, Option.map_some, Option.some.injEq] at hi ⊢
          exact toDigit_hex hi

/-- Digits stand for a number that fits their length. -/
theorem Digits.value_lt {radix value : Nat} {text : List Char} (h : Digits radix value text) :
    value < radix ^ text.length := by
  obtain ⟨digits, -, htext, rfl⟩ := h
  have hlength : digits.length = text.length := by
    simpa using (congrArg List.length htext).symm
  have hlt : ∀ d ∈ digits, d < radix := fun d hd => by
    have hmem : some d ∈ text.map (toDigit radix) := htext ▸ List.mem_map_of_mem hd
    obtain ⟨c, -, hc⟩ := List.mem_map.mp hmem
    exact toDigit_lt hc
  rw [← hlength]
  clear htext hlength
  induction digits using List.reverseRecOn with
  | nil => simp [digitsFold]
  | append_singleton digits d ih =>
      have hbefore := ih fun x hx => hlt x (List.mem_append_left _ hx)
      have hd := hlt d (by simp)
      rw [digitsFold, List.foldl_append, List.length_append, List.length_singleton, pow_succ]
      calc digitsFold radix digits * radix + d < digitsFold radix digits * radix + radix := by omega
        _ = (digitsFold radix digits + 1) * radix := by ring
        _ ≤ radix ^ digits.length * radix := Nat.mul_le_mul_right _ hbefore

theorem toDigit_digitChar {radix d : Nat} (hradix : radix = 10 ∨ radix = 16) (hd : d < radix) :
    toDigit radix d.digitChar = some d := by
  rcases hradix with rfl | rfl <;> interval_cases d <;> rfl

/-- The digits that a number is printed with stand for it. -/
theorem digits_toDigits {radix : Nat} (hradix : radix = 10 ∨ radix = 16) (n : Nat) :
    Digits radix n (Nat.toDigits radix n) := by
  have hone : 1 < radix := by omega
  induction n using Nat.strongRecOn with
  | ind n ih =>
      by_cases hn : n < radix
      · rw [Nat.toDigits_of_lt_base hn]
        exact Digits.single (toDigit_digitChar hradix hn)
      · have hdiv : n / radix < n := Nat.div_lt_self (by omega) hone
        have h := (ih _ hdiv).concat (toDigit_digitChar hradix (Nat.mod_lt n (by omega)))
        rw [Nat.toDigits_of_base_le hone (by omega)]
        rwa [Nat.div_add_mod'] at h

/-! ### Addresses -/

/-- A decimal octet, without leading zeros. -/
structure Octet (value : Nat) (text : List Char) : Prop where
  digits : Digits 10 value text
  length : text.length ≤ 3
  leading : 1 < text.length → text.head? ≠ some '0'
  range : value ≤ 255

inductive Ipv4Text : BitVec 32 → List Char → Prop where
  | octets {a b c d : Nat} {s t u v : List Char} (ha : Octet a s) (hb : Octet b t) (hc : Octet c u)
      (hd : Octet d v) :
      Ipv4Text (BitVec.ofNat 8 a ++ BitVec.ofNat 8 b ++ BitVec.ofNat 8 c ++ BitVec.ofNat 8 d)
        (s ++ '.' :: (t ++ '.' :: (u ++ '.' :: v)))

/-- Up to four hexadecimal digits. -/
inductive Group : BitVec 16 → List Char → Prop where
  | digits {value : Nat} {text : List Char} (h : Digits 16 value text) (hlength : text.length ≤ 4) :
      Group (BitVec.ofNat 16 value) text

/-- Groups with colons between them. The flag says that the last two are written as octets. -/
inductive Groups : Bool → List (BitVec 16) → List Char → Prop where
  | single {group : BitVec 16} {text : List Char} (h : Group group text) : Groups false [group] text
  | dotted {bits : BitVec 32} {text : List Char} (h : Ipv4Text bits text) :
      Groups true [bits.extractLsb' 16 16, bits.extractLsb' 0 16] text
  | cons {group : BitVec 16} {text rest : List Char} {isV4 : Bool} {groups : List (BitVec 16)}
      (h : Group group text) (hrest : Groups isV4 groups rest) :
      Groups isV4 (group :: groups) (text ++ ':' :: rest)

inductive MaybeGroups : Bool → List (BitVec 16) → List Char → Prop where
  | none : MaybeGroups false [] []
  | some {isV4 : Bool} {groups : List (BitVec 16)} {text : List Char} (h : Groups isV4 groups text) :
      MaybeGroups isV4 groups text

inductive Ipv6Text : BitVec 128 → List Char → Prop where
  | full {isV4 : Bool} {groups : List (BitVec 16)} {text : List Char} (h : Groups isV4 groups text)
      (hlength : groups.length = 8) : Ipv6Text (ofGroups groups) text
  /-- At least one group is left out. -/
  | compressed {isV4 : Bool} {head tail : List (BitVec 16)} {before after : List Char}
      (hhead : MaybeGroups false head before) (htail : MaybeGroups isV4 tail after)
      (hlength : head.length + tail.length ≤ 7) :
      Ipv6Text (ofGroups (head ++ List.replicate (8 - head.length - tail.length) 0 ++ tail))
        (before ++ ':' :: ':' :: after)

/-! ### Characters -/

/-- Visible ASCII. -/
def IsVisible (c : Char) : Prop := 33 ≤ c.toNat ∧ c.toNat ≤ 126

theorem visible_of_le {low high c : Char} (h : low ≤ c ∧ c ≤ high) (hlow : IsVisible low) (hhigh : IsVisible high) :
    IsVisible c :=
  ⟨hlow.1.trans h.1, le_trans h.2 hhigh.2⟩

theorem visible_of_toDigit {radix : Nat} {c : Char} (h : (toDigit radix c).isSome = true) : IsVisible c := by
  unfold toDigit at h
  by_cases hdigit : '0' ≤ c ∧ c ≤ '9'
  · exact visible_of_le hdigit ⟨by decide, by decide⟩ ⟨by decide, by decide⟩
  · by_cases hsmall : 'a' ≤ c ∧ c ≤ 'f'
    · exact visible_of_le hsmall ⟨by decide, by decide⟩ ⟨by decide, by decide⟩
    · by_cases hcapital : 'A' ≤ c ∧ c ≤ 'F'
      · exact visible_of_le hcapital ⟨by decide, by decide⟩ ⟨by decide, by decide⟩
      · simp [hdigit, hsmall, hcapital] at h

theorem Digits.visible {radix value : Nat} {text : List Char} (h : Digits radix value text) :
    ∀ c ∈ text, IsVisible c := fun _ hc => visible_of_toDigit (h.isSome hc)

theorem visible_separated {sep : Char} {before after : List Char} (hsep : IsVisible sep)
    (hbefore : ∀ c ∈ before, IsVisible c) (hafter : ∀ c ∈ after, IsVisible c) :
    ∀ c ∈ before ++ sep :: after, IsVisible c :=
  List.forall_mem_append.mpr ⟨hbefore, List.forall_mem_cons.mpr ⟨hsep, hafter⟩⟩

theorem Ipv4Text.visible {bits : BitVec 32} {text : List Char} (h : Ipv4Text bits text) :
    ∀ c ∈ text, IsVisible c := by
  have hdot : IsVisible '.' := ⟨by decide, by decide⟩
  cases h with
  | octets ha hb hc hd =>
      exact visible_separated hdot ha.digits.visible (visible_separated hdot hb.digits.visible
        (visible_separated hdot hc.digits.visible hd.digits.visible))

theorem Group.visible {group : BitVec 16} {text : List Char} (h : Group group text) : ∀ c ∈ text, IsVisible c := by
  cases h with
  | digits h _ => exact h.visible

theorem Groups.visible {isV4 : Bool} {groups : List (BitVec 16)} {text : List Char} (h : Groups isV4 groups text) :
    ∀ c ∈ text, IsVisible c := by
  induction h with
  | single h => exact h.visible
  | dotted h => exact h.visible
  | cons h _ ih => exact visible_separated ⟨by decide, by decide⟩ h.visible ih

theorem MaybeGroups.visible {isV4 : Bool} {groups : List (BitVec 16)} {text : List Char}
    (h : MaybeGroups isV4 groups text) : ∀ c ∈ text, IsVisible c := by
  cases h with
  | none => exact fun c hc => absurd hc List.not_mem_nil
  | some h => exact h.visible

theorem Ipv6Text.visible {bits : BitVec 128} {text : List Char} (h : Ipv6Text bits text) :
    ∀ c ∈ text, IsVisible c := by
  have hcolon : IsVisible ':' := ⟨by decide, by decide⟩
  cases h with
  | full h _ => exact h.visible
  | compressed hhead htail _ =>
      exact visible_separated hcolon hhead.visible (List.forall_mem_cons.mpr ⟨hcolon, htail.visible⟩)

end SyslogDtlsAgent
