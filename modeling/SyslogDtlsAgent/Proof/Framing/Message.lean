import SyslogDtlsAgent.Proof.Framing.Timestamp
import SyslogDtlsAgent.Proof.Framing.StructuredData

/-!
# The validator accepts RFC 5424

The scanners composed. `validMessage` is true exactly on the messages of the grammar, for any parser
of timestamps that accepts RFC 3339.
-/

namespace SyslogDtlsAgent

open Library Scan Byte

/-- The limits of the four name fields. -/
theorem names_iff {host app proc msgid : Bytes} :
    ((([host, app, proc, msgid] : List Bytes).zip [255, 48, 128, 32]).all fun (field, max) =>
        field != [] && decide (field.length ≤ max) && field.all isPrintable) = true ↔
      Name 255 host ∧ Name 48 app ∧ Name 128 proc ∧ Name 32 msgid := by
  simp only [List.zip_cons_cons, List.zip_nil_right, List.all_cons, List.all_nil, Bool.and_true,
    Bool.and_eq_true, bne_iff_ne, decide_eq_true_eq, List.all_eq_true, Name, and_assoc]

/-- The structured data and what follows it. -/
theorem structuredData_iff {rest : Bytes} :
    (if rest.head? = some dash then do
        let tail ← dropTo rest 1
        validTail tail
      else do
        let read ← sdElements (rest.length + 1) [] rest
        if read.1 = [] then pure false else validTail read.2) = (.ok true : Scan Bool) ↔
      ∃ sd tail, rest = sd ++ tail ∧ StructuredData sd ∧ Tail tail := by
  split
  · rename_i hhead
    obtain ⟨rest, rfl⟩ : ∃ t, rest = dash :: t := by
      cases rest with
      | nil => cases hhead
      | cons b rest => exact ⟨rest, by rw [Option.some.inj hhead]⟩
    rw [dropTo_one_cons, ok_bind, validTail_iff]
    constructor
    · intro htail
      exact ⟨[dash], rest, rfl, .inl rfl, htail⟩
    · rintro ⟨sd, tail, hsplit, rfl | ⟨ids, hids, -, helements⟩, htail⟩
      · cases hsplit
        exact htail
      · cases helements with
        | nil => exact absurd rfl hids
        | cons => exact absurd (List.cons.inj hsplit).1 (by decide)
  · rename_i hhead
    simp only [bind_eq_ok, Prod.exists, sdElements_eq_ok (Nat.lt_succ_self _), List.nil_append]
    constructor
    · rintro ⟨ids, tail, ⟨_, elements, rfl, -, hnodup, helements, rfl, -⟩, htail⟩
      split at htail
      · cases htail
      · rename_i hids
        exact ⟨elements, tail, rfl, .inr ⟨ids, hids, hnodup, helements⟩, validTail_iff.mp htail⟩
    · rintro ⟨sd, tail, rfl, rfl | ⟨ids, hids, hnodup, helements⟩, htail⟩
      · exact absurd rfl hhead
      · refine ⟨ids, tail, ⟨ids, sd, rfl, by simp, hnodup, helements, rfl, htail.head⟩, ?_⟩
        rw [if_neg hids]
        exact validTail_iff.mpr htail

variable {lib : External}

/-- The checks on an input already split into its fields. -/
theorem scanMessage_of_fields {m rest : Bytes} {n : Nat} (hn : n ≤ 191)
    {version ts host app proc msgid : Bytes}
    (hspaces : ∀ field ∈ [version, ts, host, app, proc, msgid], space ∉ field)
    (hm : m = less :: decimal n ++ greater :: (renderFields [version, ts, host, app, proc, msgid] ++ rest)) :
    scanMessage lib m = .ok true ↔
      version = [0x31] ∧ (ts = [dash] ∨ timestamp lib ts = .ok ()) ∧
        (Name 255 host ∧ Name 48 app ∧ Name 128 proc ∧ Name 32 msgid) ∧
        ∃ sd tail, rest = sd ++ tail ∧ StructuredData sd ∧ Tail tail := by
  have hpriority := priority_eq_ok.mpr ⟨n, hn, hm⟩
  have hfields : headerFields 6 _ = .ok (_, rest) := headerFields_eq_ok.mpr ⟨rfl, hspaces, rfl⟩
  have hversion : Scan.get [version, ts, host, app, proc, msgid] 0 = .ok version := rfl
  have htimestamp : Scan.get [version, ts, host, app, proc, msgid] 1 = .ok ts := rfl
  have hnames : dropTo [version, ts, host, app, proc, msgid] 2 = .ok [host, app, proc, msgid] := rfl
  rw [← names_iff, ← structuredData_iff]
  simp only [scanMessage, hpriority, hfields, ok_bind, hversion, htimestamp, hnames, bind_eq_ok,
    require_eq_ok, exists_const, beq_iff_eq]
  by_cases hts : ts = [dash]
  · simp only [hts, ne_eq, not_true_eq_false, if_false, bind_eq_ok, require_eq_ok, exists_const, true_or,
      true_and]
  · simp only [hts, ne_eq, not_false_eq_true, if_true, bind_eq_ok, require_eq_ok, false_or,
      Unique.exists_iff, PUnit.default_eq_unit]

/-- No field of a header holds a space. -/
theorem Name.no_space {limit : Nat} {s : Bytes} (h : Name limit s) : space ∉ s := by
  intro hin
  have := h.2.2 space hin
  rw [isPrintable_space] at this
  cases this

theorem Timestamp.no_space {ts : Bytes} (h : Timestamp ts) : space ∉ ts := by
  rcases h with rfl | ⟨t, hvalid, -, rfl⟩
  · decide
  · intro hin
    rcases hvalid.widen.mem_render hin with hb | hb | hb | hb | hb | hb | hb
    · exact absurd hb (by decide)
    · exact absurd hb (by decide)
    · exact absurd hb (by decide)
    · exact absurd hb (by decide)
    · exact absurd hb (by decide)
    · exact absurd hb (by decide)
    · exact absurd hb (by decide)

theorem six_fields : ∀ {fields : List Bytes}, fields.length = 6 → ∃ a b c d e f, fields = [a, b, c, d, e, f]
  | [a, b, c, d, e, f], _ => ⟨a, b, c, d, e, f, rfl⟩

theorem scanMessage_eq_ok (hparser : Rfc3339Parser lib.rfc3339) {m : Bytes} :
    scanMessage lib m = .ok true ↔ Rfc5424 m := by
  constructor
  · intro h
    have hshape := h
    simp only [scanMessage, bind_eq_ok, Prod.exists] at hshape
    obtain ⟨fieldBytes, hpriority, fields, rest, hfields, -⟩ := hshape
    obtain ⟨n, hn, rfl⟩ := priority_eq_ok.mp hpriority
    obtain ⟨hlength, hspaces, rfl⟩ := headerFields_eq_ok.mp hfields
    obtain ⟨version, ts, host, app, proc, msgid, rfl⟩ := six_fields hlength
    obtain ⟨rfl, hts, ⟨hhost, happ, hproc, hmsgid⟩, sd, tail, rfl, hsd, htail⟩ :=
      (scanMessage_of_fields hn hspaces rfl).mp h
    have hts : Timestamp ts := hts.imp_right (timestamp_eq_ok hparser).mp
    have := Rfc5424.message hn hts hhost happ hproc hmsgid hsd htail
    simpa [renderFields] using this
  · rintro @⟨n, ts, host, app, proc, msgid, sd, tail, hn, hts, hhost, happ, hproc, hmsgid, hsd, htail⟩
    have hspaces : ∀ field ∈ [[0x31], ts, host, app, proc, msgid], space ∉ field := by
      simp only [List.forall_mem_cons, List.not_mem_nil, false_imp_iff, implies_true, and_true]
      exact ⟨by decide, hts.no_space, hhost.no_space, happ.no_space, hproc.no_space, hmsgid.no_space⟩
    have hsplit : less :: decimal n ++ greater :: 0x31 :: space :: ts ++ space :: host ++ space :: app ++
        space :: proc ++ space :: msgid ++ space :: sd ++ tail =
        less :: decimal n ++ greater :: (renderFields [[0x31], ts, host, app, proc, msgid] ++ (sd ++ tail)) := by
      simp [renderFields]
    exact (scanMessage_of_fields hn hspaces hsplit).mpr ⟨rfl, hts.imp_right (timestamp_eq_ok hparser).mpr,
      ⟨hhost, happ, hproc, hmsgid⟩, sd, tail, rfl, hsd, htail⟩

theorem valid_message_accepts_rfc5424 (hparser : Rfc3339Parser lib.rfc3339) (m : Bytes) :
    validMessage lib m = true ↔ Rfc5424 m := by
  rw [← scanMessage_eq_ok hparser, validMessage]
  cases scanMessage lib m <;> simp

/-- A message with a fraction of a second, an escaped bracket and a body that is not UTF-8. -/
theorem valid_message_accepts_rfc5424_with_escape :
    validMessage ⟨strictRfc3339, fun _ => none, fun _ => none, fun _ => []⟩
        (asBytes "<0>1 2026-09-09T12:00:00.123Z h a p m [x a=\"escaped\\]value\"] " ++ [0xff]) = true ↔
      Rfc5424
        (asBytes "<0>1 2026-09-09T12:00:00.123Z h a p m [x a=\"escaped\\]value\"] " ++ [0xff]) :=
  valid_message_accepts_rfc5424 strictRfc3339_lawful _

example : validMessage ⟨strictRfc3339, fun _ => none, fun _ => none, fun _ => []⟩
    (asBytes "<0>1 2026-09-09T12:00:00.123Z h a p m [x a=\"escaped\\]value\"] " ++ [0xff]) = true := by
  decide +kernel

end SyslogDtlsAgent
