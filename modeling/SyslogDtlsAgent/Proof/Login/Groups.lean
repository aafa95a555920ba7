import SyslogDtlsAgent.Proof.Login.Token

/-!
# What the log says about a group

`groupCheck` repeats the decision of `hasGroup` with other guards. It asks whether a string equals the
required group before it asks whether the string is a list, so the two part ways on a list that is
spelled like the required group.
-/

namespace SyslogDtlsAgent

open Library

/-- The texts of `groupCheck` that report a match. -/
def matchedTexts : List String :=
  ["matched comma-separated group", "matched string", "matched string-array member"]

/-- The parts of a list hold no comma, so a required group with one in it is never among them. -/
theorem Carries.no_comma {required groups : String} (h : Carries required (.string groups)) :
    ',' ∉ required.toList := by
  cases h with
  | single hne hcomma => exact hcomma
  | @listed _ part hne hcomma hpart htrim =>
      intro hin
      obtain ⟨piece, hpiece, rfl⟩ := List.mem_map.mp hpart
      rw [← htrim, Text.trim, String.toList_ofList, List.mem_reverse, String.toList_ofList] at hin
      have hback := List.mem_reverse.mp ((List.dropWhile_sublist _).mem hin)
      exact Scan.notMem_of_mem_splitOn hpiece ((List.dropWhile_sublist _).mem hback)

/-- A string claim is reported as matched when it names the group, or is spelled like it. -/
theorem groupCheck_string (group required : String) :
    groupCheck (some (.string group)) required ∈ matchedTexts ↔
      (Text.containsChar group ',' = true ∧ stringHasGroup group required = true) ∨ group = required := by
  by_cases hlisted : (Text.containsChar group ',' && stringHasGroup group required) = true
  · simp only [groupCheck, hlisted, if_true]
    rw [Bool.and_eq_true] at hlisted
    exact ⟨fun _ => .inl hlisted, fun _ => by decide⟩
  · by_cases heq : group = required
    · subst heq
      simp only [groupCheck, if_neg hlisted, beq_self_eq_true, if_true, or_true, iff_true]
      decide
    · rw [Bool.and_eq_true] at hlisted
      simp only [hlisted, heq, or_self, iff_false]
      simp only [groupCheck, Bool.and_eq_true, hlisted, if_false, beq_iff_eq, heq]
      split_ifs <;> decide

/-- An array claim is reported as matched when it names the group. -/
theorem groupCheck_array (groups : List Json) (required : String) :
    groupCheck (some (.array groups)) required ∈ matchedTexts ↔
      hasGroup (some (.array groups)) required = true := by
  simp only [groupCheck, hasGroup]
  split_ifs with hstrings hempty hmem hcase
  · rw [Bool.not_eq_true'] at hstrings
    simp [hstrings, matchedTexts]
  · rw [List.isEmpty_iff.mp hempty]
    simp [matchedTexts]
  · rw [Bool.not_eq_true', Bool.not_eq_false] at hstrings
    simp [hstrings, hmem, matchedTexts]
  · rw [Bool.not_eq_true] at hmem
    simp [hmem, matchedTexts]
  · rw [Bool.not_eq_true] at hmem
    simp [hmem, matchedTexts]

/-- The log and the decision agree unless the claim is the required group spelled out and that group has a
comma in it. -/
theorem group_check_agrees_iff (value : Option Json) (required : String) (hrequired : Text.trim required ≠ "") :
    (groupCheck value required ∈ matchedTexts ↔ hasGroup value required = true) ↔
      ¬ (value = some (.string required) ∧ ',' ∈ required.toList) := by
  have hne : required ≠ "" := by
    rintro rfl
    exact hrequired (by decide)
  cases value with
  | none => simp [groupCheck, hasGroup, matchedTexts]
  | some claim =>
      cases claim with
      | null | bool | number | object => simp [groupCheck, hasGroup, matchedTexts]
      | array groups => simp [groupCheck_array]
      | string group =>
          rw [groupCheck_string]
          simp only [hasGroup, Option.some.injEq, Json.string.injEq]
          constructor
          · rintro hagree ⟨rfl, hcomma⟩
            exact (stringHasGroup_iff.mp (hagree.mp (.inr rfl))).no_comma hcomma
          · intro hother
            constructor
            · rintro (⟨-, hgroup⟩ | rfl)
              · exact hgroup
              · exact stringHasGroup_iff.mpr (.single hne fun hcomma => hother ⟨rfl, hcomma⟩)
            · intro hgroup
              cases stringHasGroup_iff.mp hgroup with
              | single _ _ => exact .inr rfl
              | listed _ hcomma _ _ => exact .inl ⟨List.contains_iff_mem.mpr hcomma, hgroup⟩

theorem group_check_agrees_iff_on_a_list :
    groupCheck (some (.string "staff, admin")) "admin" ∈ matchedTexts ↔
      hasGroup (some (.string "staff, admin")) "admin" = true :=
  (group_check_agrees_iff (some (.string "staff, admin")) "admin" (by decide)).mpr (by simp)

/-- A directory name: the claim is the required group, the login is denied, and the reason given is a
match. -/
theorem group_check_reports_a_denied_login_as_matched :
    let required := "cn=admins,dc=example"
    let claims : Claims := ⟨none, [("groups", .string required)], none, 0, 1000, none, none, "alice"⟩
    let flow : Flow :=
      ⟨none, "https://id.example", ⟨⟨"", "", none, ""⟩, "agent", none, ""⟩, "state", "nonce", "verifier", 0⟩
    let config : Oidc := { Oidc.default with clientId := "agent", requiredGroup := required }
    Text.trim required ≠ "" ∧
      groupCheck (some (.string required)) required = "matched string" ∧
      hasGroup (some (.string required)) required = false ∧
      (Auth.acceptTokens config flow ⟨"token", claims, .ok ""⟩ 10).map Login.username =
        .error "Required group missing: matched string" := by
  refine ⟨by decide, by decide, by decide, ?_⟩
  decide +kernel

end SyslogDtlsAgent
