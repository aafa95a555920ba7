import SyslogDtlsAgent.Cli.Diagnostics

/-!
# What redaction hides

A path leads from a JSON value to a value inside it, and a path is exposed if it leads through no
sensitive member. Redaction keeps what every exposed path leads to and cuts the value off at the first
sensitive member, so two values look the same in the log exactly when they agree along exposed paths.
-/

namespace SyslogDtlsAgent

/-! ### Paths -/

namespace Json

/-- A value is proved from its parts. -/
@[elab_as_elim]
theorem induction {P : Json → Prop} (null : P .null) (bool : ∀ b, P (.bool b)) (number : ∀ n, P (.number n))
    (string : ∀ s, P (.string s)) (array : ∀ values, (∀ v ∈ values, P v) → P (.array values))
    (object : ∀ members, (∀ m ∈ members, P m.2) → P (.object members)) (value : Json) : P value := by
  refine @Json.rec P (fun values => ∀ v ∈ values, P v) (fun members => ∀ m ∈ members, P m.2)
    (fun m => P m.2) null bool number string array object ?_ ?_ ?_ ?_ ?_ value
  · simp
  · intro v values hv hvalues
    exact List.forall_mem_cons.mpr ⟨hv, hvalues⟩
  · simp
  · intro m members hm hmembers
    exact List.forall_mem_cons.mpr ⟨hm, hmembers⟩
  · intro name v hv
    exact hv

/-- One step into an array, or into an object at a member of a name. -/
inductive Step where
  | item (i : Nat)
  | member (i : Nat) (name : String)

def child : Json → Step → Option Json
  | .array values, .item i => values[i]?
  | .object members, .member i name => (members[i]?).bind fun m => if m.1 = name then some m.2 else none
  | _, _ => none

/-- The value a path leads to. -/
def follow (value : Json) : List Step → Option Json
  | [] => some value
  | step :: path => (value.child step).bind (follow · path)

/-- What a value shows of itself, without the values inside it. -/
inductive Node where
  | scalar (value : Json)
  | array (length : Nat)
  | object (names : List String)

def node : Json → Node
  | .array values => .array values.length
  | .object members => .object (members.map Prod.fst)
  | value => .scalar value

/-- What stands where a path leads. -/
def nodeAt (value : Json) (path : List Step) : Option Node := (value.follow path).map node

theorem nodeAt_cons (value : Json) (step : Step) (path : List Step) :
    value.nodeAt (step :: path) = (value.child step).bind (nodeAt · path) := by
  simp only [nodeAt, follow, Option.map_bind]
  rfl

end Json

open Json

namespace Json.Step

def isSensitive : Step → Bool
  | .item _ => false
  | .member _ name => sensitive name

end Json.Step

def Exposed (path : List Step) : Prop := ∀ step ∈ path, step.isSensitive = false

theorem exposed_cons {step : Step} {path : List Step} :
    Exposed (step :: path) ↔ step.isSensitive = false ∧ Exposed path :=
  List.forall_mem_cons

/-! ### One level -/

/-- What redaction makes of one member. -/
def redactField (field : String × Json) : String × Json :=
  (field.1, if sensitive field.1 then redacted else redact field.2)

theorem redact_array (values : List Json) : redact (.array values) = .array (values.map redact) := by
  have h : redactValues values = values.map redact := by
    induction values with
    | nil => rfl
    | cons v values ih => rw [redactValues, ih, List.map_cons]
  rw [redact, h]

theorem redact_object (members : List (String × Json)) :
    redact (.object members) = .object (members.map redactField) := by
  have h : redactFields members = members.map redactField := by
    induction members with
    | nil => rfl
    | cons m members ih => rw [redactFields, ih, List.map_cons, redactField]
  rw [redact, h]

theorem node_redact (value : Json) : (redact value).node = value.node := by
  cases value with
  | array values => rw [redact_array, node, node, List.length_map]
  | object members =>
      rw [redact_object, node, node, List.map_map]
      rfl
  | null | bool | number | string => rfl

/-- A step into a redacted value: past a sensitive name stands the mark, elsewhere the redacted part. -/
theorem child_redact (value : Json) (step : Step) :
    (redact value).child step =
      (value.child step).map fun part => if step.isSensitive then redacted else redact part := by
  cases value with
  | array values =>
      rw [redact_array]
      cases step with
      | item i => simp [child, Step.isSensitive]
      | member i name => rfl
  | object members =>
      rw [redact_object]
      cases step with
      | item i => rfl
      | member i name =>
          simp only [child, List.getElem?_map]
          cases members[i]? with
          | none => rfl
          | some m =>
              by_cases hname : m.1 = name
              · subst hname
                simp only [Option.map_some, Option.bind_some, redactField, if_true]
                rfl
              · simp [redactField, hname]
  | null | bool | number | string => rfl

/-! ### Whole values -/

theorem follow_redact (value : Json) {path : List Step} (h : Exposed path) :
    (redact value).follow path = (value.follow path).map redact := by
  induction path generalizing value with
  | nil => rfl
  | cons step path ih =>
      obtain ⟨hstep, hpath⟩ := exposed_cons.mp h
      simp only [follow, child_redact, hstep]
      cases value.child step with
      | none => rfl
      | some part => exact ih part hpath

theorem nodeAt_redact (value : Json) {path : List Step} (h : Exposed path) :
    (redact value).nodeAt path = value.nodeAt path := by
  rw [nodeAt, follow_redact value h, Option.map_map, nodeAt]
  congr 1
  funext part
  exact node_redact part

/-- A sensitive member that is left anywhere has the mark for its value. -/
theorem follow_sensitive {value part : Json} {path : List Step} {i : Nat} {name : String}
    (hname : sensitive name = true) (h : (redact value).follow (path ++ [.member i name]) = some part) :
    part = redacted := by
  induction path generalizing value with
  | nil =>
      simp only [List.nil_append, follow, child_redact, Step.isSensitive, hname, if_true] at h
      cases hchild : value.child (.member i name) with
      | none =>
          rw [hchild] at h
          cases h
      | some inner =>
          rw [hchild] at h
          exact (Option.some.inj h).symm
  | cons step path ih =>
      simp only [List.cons_append, follow, child_redact] at h
      cases hchild : value.child step with
      | none =>
          rw [hchild] at h
          cases h
      | some inner =>
          rw [hchild, Option.map_some, Option.bind_some] at h
          cases hstep : step.isSensitive with
          | false =>
              rw [hstep] at h
              exact ih h
          | true =>
              -- the mark is a string, so no path leads on from it
              rw [hstep, if_pos rfl] at h
              cases path <;> cases h

/-- Two values agree along every exposed path. -/
def Agree (left right : Json) : Prop := ∀ path, Exposed path → left.nodeAt path = right.nodeAt path

theorem Agree.child {left right part : Json} (h : Agree left right) {step : Step}
    (hstep : step.isSensitive = false) {part' : Json} (hleft : left.child step = some part)
    (hright : right.child step = some part') : Agree part part' := by
  intro path hpath
  have hnode := h (step :: path) (exposed_cons.mpr ⟨hstep, hpath⟩)
  rwa [nodeAt_cons, nodeAt_cons, hleft, hright] at hnode

theorem Agree.node {left right : Json} (h : Agree left right) : left.node = right.node := by
  have hnode := h [] (fun step hstep => absurd hstep List.not_mem_nil)
  exact Option.some.inj hnode

theorem map_eq_of_getElem {α β : Type} {f : α → β} {xs ys : List α} (hlength : xs.length = ys.length)
    (h : ∀ i (hi : i < xs.length) (hi' : i < ys.length), f xs[i] = f ys[i]) : xs.map f = ys.map f := by
  apply List.ext_getElem
  · rw [List.length_map, List.length_map, hlength]
  · intro i hi hi'
    rw [List.length_map] at hi hi'
    rw [List.getElem_map, List.getElem_map]
    exact h i hi hi'

/-- Values that agree are redacted to the same value. -/
theorem redact_eq_of_agree {left right : Json} (h : Agree left right) : redact left = redact right := by
  induction left using Json.induction generalizing right with
  | array values ih =>
      have hnode := h.node
      cases right with
      | array others =>
          rw [redact_array, redact_array]
          have hlength : values.length = others.length := by
            simpa only [node, Node.array.injEq] using hnode
          congr 1
          apply map_eq_of_getElem hlength
          intro i hi hi'
          apply ih values[i] (List.getElem_mem hi)
          have hstep : (Step.item i).isSensitive = false := rfl
          exact h.child hstep (List.getElem?_eq_getElem hi) (List.getElem?_eq_getElem hi')
      | null | bool | number | string | object => cases hnode
  | object members ih =>
      have hnode := h.node
      cases right with
      | object others =>
          rw [redact_object, redact_object]
          have hnames : members.map Prod.fst = others.map Prod.fst := by
            simpa only [node, Node.object.injEq] using hnode
          have hlength : members.length = others.length := by
            simpa only [List.length_map] using congrArg List.length hnames
          congr 1
          apply map_eq_of_getElem hlength
          intro i hi hi'
          have hname : members[i].1 = others[i].1 := by
            have hat := congrArg (fun names => names[i]?) hnames
            simpa [List.getElem?_eq_getElem hi, List.getElem?_eq_getElem hi'] using hat
          unfold redactField
          rw [hname]
          by_cases hsensitive : sensitive others[i].1 = true
          · rw [if_pos hsensitive, if_pos hsensitive]
          · rw [if_neg hsensitive, if_neg hsensitive]
            have hstep : (Step.member i others[i].1).isSensitive = false := by
              simpa [Step.isSensitive] using hsensitive
            have hinside : Agree members[i].2 others[i].2 := by
              apply h.child hstep
              · simp [Json.child, List.getElem?_eq_getElem hi, hname]
              · simp [Json.child, List.getElem?_eq_getElem hi']
            rw [ih members[i] (List.getElem_mem hi) hinside]
      | null | bool | number | string | array => cases hnode
  | null | bool | number | string =>
      have hnode := h.node
      cases right <;> cases hnode
      rfl

/-- Along exposed paths the log shows the claims as they are, every sensitive member it shows is marked,
and it tells two documents apart only where they differ along an exposed path. -/
theorem claim_redaction_is_exact (claims : Json) :
    (∀ path, Exposed path → (diagnosticClaims (some claims)).nodeAt path = claims.nodeAt path) ∧
      (∀ path i name part, sensitive name = true →
        (diagnosticClaims (some claims)).follow (path ++ [.member i name]) = some part →
          part = .string "[REDACTED]") ∧
      ∀ others, diagnosticClaims (some claims) = diagnosticClaims (some others) ↔
        ∀ path, Exposed path → claims.nodeAt path = others.nodeAt path := by
  refine ⟨fun path hpath => nodeAt_redact claims hpath, fun path i name part hname h => ?_, fun others => ?_⟩
  · exact follow_sensitive hname h
  · constructor
    · intro heq path hpath
      rw [← nodeAt_redact claims hpath, ← nodeAt_redact others hpath]
      exact congrArg (Json.nodeAt · path) heq
    · intro hagree
      exact redact_eq_of_agree hagree

example : diagnosticClaims (some (.object [("sub", .string "alice"), ("Refresh_Token", .array [.string "x"]),
    ("nested", .array [.object [("SID", .bool true), ("aud", .null)]])])) =
      .object [("sub", .string "alice"), ("Refresh_Token", .string "[REDACTED]"),
        ("nested", .array [.object [("SID", .string "[REDACTED]"), ("aud", .null)]])] := by
  rfl

end SyslogDtlsAgent
