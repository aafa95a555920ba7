import SyslogDtlsAgent.Proof.Net.Parser

/-!
# Printed addresses

What `to_string` prints for an IP address is a text of that address, so the parser reads it back.
-/

namespace SyslogDtlsAgent

open AddrParser

theorem toList_toString (n : Nat) : (toString n).toList = Nat.toDigits 10 n := by
  rw [Nat.toString_eq_repr, Nat.toList_repr]

/-! ### IPv4 addresses -/

theorem octet_toDigits {n : Nat} (h : n < 256) : Octet n (Nat.toDigits 10 n) := by
  have hshape : ∀ n < 256, (Nat.toDigits 10 n).length ≤ 3 ∧
      (1 < (Nat.toDigits 10 n).length → (Nat.toDigits 10 n).head? ≠ some '0') := by
    decide +kernel
  obtain ⟨hlength, hleading⟩ := hshape n h
  exact ⟨digits_toDigits (.inl rfl) n, hlength, hleading, by omega⟩

theorem displayV4_text (bits : BitVec 32) : Ipv4Text bits (displayV4 bits).toList := by
  have hoctet : ∀ shift, Octet (bits.extractLsb' shift 8).toNat (Nat.toDigits 10 (bits.extractLsb' shift 8).toNat) :=
    fun shift => octet_toDigits (bits.extractLsb' shift 8).isLt
  have htext : (displayV4 bits).toList =
      Nat.toDigits 10 (bits.extractLsb' 24 8).toNat ++ '.' :: (Nat.toDigits 10 (bits.extractLsb' 16 8).toNat ++
        '.' :: (Nat.toDigits 10 (bits.extractLsb' 8 8).toNat ++ '.' :: Nat.toDigits 10 (bits.extractLsb' 0 8).toNat)) := by
    simp only [displayV4, List.map_cons, List.map_nil, String.intercalate_cons_cons, String.intercalate_singleton,
      String.toList_append, toList_toString, List.append_assoc]
    rfl
  have hbits : bits = BitVec.ofNat 8 (bits.extractLsb' 24 8).toNat ++ BitVec.ofNat 8 (bits.extractLsb' 16 8).toNat ++
      BitVec.ofNat 8 (bits.extractLsb' 8 8).toNat ++ BitVec.ofNat 8 (bits.extractLsb' 0 8).toNat := by
    simp only [BitVec.ofNat_toNat, BitVec.setWidth_eq]
    rw [BitVec.extractLsb'_append_extractLsb'_eq_extractLsb' (by rfl),
      BitVec.extractLsb'_append_extractLsb'_eq_extractLsb' (by rfl),
      BitVec.extractLsb'_append_extractLsb'_eq_extractLsb' (by rfl), BitVec.extractLsb'_eq_self]
  have h := Ipv4Text.octets (hoctet 24) (hoctet 16) (hoctet 8) (hoctet 0)
  rw [← hbits, ← htext] at h
  exact h

/-! ### IPv6 addresses -/

theorem group_toDigits (group : BitVec 16) : Group group (Nat.toDigits 16 group.toNat) := by
  have hlength : (Nat.toDigits 16 group.toNat).length ≤ 4 :=
    (Nat.length_toDigits_le_iff (by decide) (by decide)).mpr group.isLt
  have h := Group.digits (digits_toDigits (.inr rfl) group.toNat) hlength
  rwa [BitVec.ofNat_toNat, BitVec.setWidth_eq] at h

theorem displayGroups_text (groups : List (BitVec 16)) : MaybeGroups false groups (displayGroups groups).toList := by
  induction groups with
  | nil => exact .none
  | cons group groups ih =>
      cases groups with
      | nil =>
          have htext : (displayGroups [group]).toList = Nat.toDigits 16 group.toNat := by
            simp [displayGroups]
          rw [htext]
          exact .some (.single (group_toDigits group))
      | cons next groups =>
          have htext : (displayGroups (group :: next :: groups)).toList =
              Nat.toDigits 16 group.toNat ++ ':' :: (displayGroups (next :: groups)).toList := by
            simp only [displayGroups, List.map_cons, String.intercalate_cons_cons, String.toList_append,
              String.toList_ofList, List.append_assoc]
            rfl
          rw [htext]
          cases ih with
          | some h => exact .some (.cons (group_toDigits group) h)

/-- The eight groups of an address. -/
def groupsOf (bits : BitVec 128) : List (BitVec 16) := (List.range 8).map fun i => bits.extractLsb' (16 * (7 - i)) 16

theorem ofGroups_groupsOf (bits : BitVec 128) : ofGroups (groupsOf bits) = bits := by
  apply BitVec.eq_of_toNat_eq
  have hlt := bits.isLt
  simp only [ofGroups, groupsOf, List.range, List.range.loop, List.map_cons, List.map_nil, List.foldl_cons, List.foldl_nil,
    BitVec.extractLsb'_toNat, BitVec.toNat_ofNat, Nat.shiftRight_eq_div_pow]
  norm_num
  omega

/-- A run of zero groups, as its start and length. -/
def ZeroRun (groups : List (BitVec 16)) (run : Nat × Nat) : Prop :=
  ∃ before after, groups = before ++ (List.replicate run.2 0#16 ++ after) ∧ before.length = run.1

/-- A run that goes on to the end, or no run. -/
def OpenRun (groups : List (BitVec 16)) (run : Nat × Nat) : Prop :=
  run.2 = 0 ∨ ∃ before, groups = before ++ List.replicate run.2 0#16 ∧ before.length = run.1

theorem ZeroRun.concat {groups : List (BitVec 16)} {run : Nat × Nat} (h : ZeroRun groups run) (group : BitVec 16) :
    ZeroRun (groups ++ [group]) run := by
  obtain ⟨before, after, rfl, hbefore⟩ := h
  exact ⟨before, after ++ [group], by simp only [List.append_assoc], hbefore⟩

theorem OpenRun.concat {groups : List (BitVec 16)} {run : Nat × Nat} (h : OpenRun groups run) :
    OpenRun (groups ++ [0#16]) (if run.2 = 0 then groups.length else run.1, run.2 + 1) := by
  right
  rcases h with hzero | ⟨before, rfl, hbefore⟩
  · exact ⟨groups, by simp [hzero], by simp [hzero]⟩
  · by_cases hzero : run.2 = 0
    · exact ⟨before, by simp [hzero], by simp [hzero]⟩
    · exact ⟨before, by rw [List.append_assoc, ← List.replicate_succ'], by simp [hzero, hbefore]⟩

theorem OpenRun.closed {groups : List (BitVec 16)} {run : Nat × Nat} (h : OpenRun groups run) (hne : run.2 ≠ 0) :
    ZeroRun groups run := by
  rcases h with hzero | ⟨before, hgroups, hbefore⟩
  · exact absurd hzero hne
  · exact ⟨before, [], by simpa using hgroups, hbefore⟩

/-- One group of the scan for the longest run. -/
def zeroStep (acc : (Nat × Nat) × (Nat × Nat)) (item : BitVec 16 × Nat) : (Nat × Nat) × (Nat × Nat) :=
  if item.1 = 0#16 then
    let current := (if acc.2.2 = 0 then item.2 else acc.2.1, acc.2.2 + 1)
    (if acc.1.2 < current.2 then current else acc.1, current)
  else (acc.1, (0, 0))

theorem zeroScan (groups : List (BitVec 16)) :
    ZeroRun groups (groups.zipIdx.foldl zeroStep ((0, 0), (0, 0))).1 ∧
      OpenRun groups (groups.zipIdx.foldl zeroStep ((0, 0), (0, 0))).2 := by
  induction groups using List.reverseRecOn with
  | nil => exact ⟨⟨[], [], rfl, rfl⟩, .inl rfl⟩
  | append_singleton groups group ih =>
      rw [List.zipIdx_append, List.foldl_append]
      obtain ⟨hlongest, hcurrent⟩ := ih
      generalize groups.zipIdx.foldl zeroStep ((0, 0), (0, 0)) = acc at hlongest hcurrent ⊢
      simp only [List.zipIdx_cons, List.zipIdx_nil, List.foldl_cons, List.foldl_nil, Nat.zero_add, zeroStep]
      by_cases hgroup : group = 0#16
      · subst hgroup
        have hrun := hcurrent.concat
        rw [if_pos rfl]
        refine ⟨?_, hrun⟩
        by_cases hlonger : acc.1.2 < acc.2.2 + 1
        · rw [if_pos hlonger]
          exact hrun.closed (Nat.succ_ne_zero _)
        · rw [if_neg hlonger]
          exact hlongest.concat _
      · simp only [hgroup, if_false]
        exact ⟨hlongest.concat group, .inl rfl⟩

theorem zeroSpan_run (groups : List (BitVec 16)) : ZeroRun groups (zeroSpan groups) := (zeroScan groups).1

/-- Eight groups with a run of zeros left out. -/
theorem ZeroRun.text {groups : List (BitVec 16)} {run : Nat × Nat} (h : ZeroRun groups run) (hlength : groups.length = 8)
    (hlong : 1 < run.2) :
    Ipv6Text (ofGroups groups)
      (displayGroups (groups.take run.1) ++ "::" ++ displayGroups (groups.drop (run.1 + run.2))).toList := by
  obtain ⟨before, after, rfl, hbefore⟩ := h
  simp only [List.length_append, List.length_replicate] at hlength
  have hrun : 8 - before.length - after.length = run.2 := by omega
  have hcompressed := Ipv6Text.compressed (displayGroups_text before) (displayGroups_text after) (by omega)
  rw [hrun, List.append_assoc] at hcompressed
  rw [← hbefore, List.take_left, ← List.drop_drop, List.drop_left, List.drop_left' List.length_replicate,
    String.toList_append, String.toList_append, List.append_assoc]
  exact hcompressed

theorem ofGroups_mapped {bits : BitVec 128} {low : BitVec 32} (h : IpAddr.toIpv4Mapped bits = some low) :
    ofGroups (List.replicate 5 0#16 ++ [0xffff#16, low.extractLsb' 16 16, low.extractLsb' 0 16]) = bits := by
  unfold IpAddr.toIpv4Mapped at h
  split_ifs at h with hmapped
  obtain rfl := Option.some.inj h
  have hhigh := congrArg BitVec.toNat hmapped
  have hlt := bits.isLt
  apply BitVec.eq_of_toNat_eq
  simp only [BitVec.extractLsb'_toNat, BitVec.toNat_ofNat, Nat.shiftRight_eq_div_pow] at hhigh
  simp only [ofGroups, List.replicate, List.cons_append, List.nil_append, List.foldl_cons, List.foldl_nil,
    BitVec.extractLsb'_toNat, BitVec.toNat_ofNat, Nat.shiftRight_eq_div_pow]
  norm_num at hhigh ⊢
  omega

theorem displayV6_text (bits : BitVec 128) : Ipv6Text bits (IpAddr.display (.v6 bits)).toList := by
  simp only [IpAddr.display]
  split
  · rename_i low hmapped
    have hffff : Group 0xffff#16 ['f', 'f', 'f', 'f'] := group_toDigits 0xffff#16
    have h := Ipv6Text.compressed .none (.some (.cons hffff (.dotted (displayV4_text low)))) (by simp)
    rw [String.toList_append]
    exact ofGroups_mapped hmapped ▸ h
  · show Ipv6Text bits (if 1 < (zeroSpan (groupsOf bits)).2 then _ else displayGroups (groupsOf bits)).toList
    have hlength : (groupsOf bits).length = 8 := rfl
    split_ifs with hlong
    · have h := (zeroSpan_run (groupsOf bits)).text hlength hlong
      rwa [ofGroups_groupsOf] at h
    · have hne : groupsOf bits ≠ [] := List.cons_ne_nil _ _
      have h := displayGroups_text (groupsOf bits)
      generalize hall : groupsOf bits = groups at h hne
      cases h with
      | none => exact absurd rfl hne
      | some h =>
          subst hall
          have hfull := Ipv6Text.full h hlength
          rwa [ofGroups_groupsOf] at hfull

/-! ### Reading back -/

/-- No text of an IPv6 address begins like octets. -/
theorem Ipv6Text.not_octets {bits : BitVec 128} {text : List Char} (h : Ipv6Text bits text) : readIpv4Addr text = none := by
  have hgroups : ∀ {isV4 groups text rest}, Groups isV4 groups text → isV4 = false ∨ 2 < groups.length →
      NoDigit 16 rest → rest.head? ≠ some '.' → readIpv4Addr (text ++ rest) = none := by
    intro isV4 groups text rest h hsize hrest hdot
    cases h with
    | single hgroup =>
        obtain ⟨hdigits, -⟩ := hgroup
        exact readIpv4Addr_group hdigits hrest hdot
    | dotted _ => simp at hsize
    | cons hgroup hmore =>
        obtain ⟨hdigits, -⟩ := hgroup
        rw [List.append_assoc]
        exact readIpv4Addr_group hdigits (noDigit_cons rfl) (by simp)
  cases h with
  | full h hlength =>
      have hnone := hgroups h (.inr (by omega)) (noDigit_nil 16) (by simp)
      rwa [List.append_nil] at hnone
  | compressed hhead htail hlength =>
      cases hhead with
      | none => exact readIpv4Addr_noDigit (noDigit_cons rfl)
      | some h => exact hgroups h (.inl rfl) (noDigit_cons rfl) (by simp)

theorem parseIpAddr_v4 {bits : BitVec 32} {text : String} (h : Ipv4Text bits text.toList) :
    parseIpAddr text = some (.v4 bits) := by
  have hread : readIpv4Addr text.toList = some (bits, []) :=
    readIpv4Addr_iff.mpr ⟨_, (List.append_nil _).symm, h, noDigit_nil 10⟩
  rw [parseIpAddr, parseWith_eq_some, hread]
  rfl

theorem parseIpAddr_v6 {bits : BitVec 128} {text : String} (h : Ipv6Text bits text.toList) :
    parseIpAddr text = some (.v6 bits) := by
  have hread := readIpv6Addr_append h ⟨noDigit_nil 16, by simp, by simp⟩
  rw [List.append_nil] at hread
  rw [parseIpAddr, parseWith_eq_some, h.not_octets, hread]
  rfl

/-- The parser reads back what an address prints as. -/
@[simp] theorem parseIpAddr_display (ip : IpAddr) : parseIpAddr ip.display = some ip := by
  cases ip with
  | v4 bits => exact parseIpAddr_v4 (displayV4_text bits)
  | v6 bits => exact parseIpAddr_v6 (displayV6_text bits)

theorem IpAddr.display_visible (ip : IpAddr) : ∀ c ∈ ip.display.toList, IsVisible c := by
  cases ip with
  | v4 bits => exact (displayV4_text bits).visible
  | v6 bits => exact (displayV6_text bits).visible

/-- Every address has a literal. -/
theorem exists_literal (ip : IpAddr) : ∃ text, Literal ip text := by
  cases ip with
  | v4 bits => exact ⟨_, .v4 (displayV4_text bits)⟩
  | v6 bits => exact ⟨_, .v6 (displayV6_text bits)⟩

end SyslogDtlsAgent
