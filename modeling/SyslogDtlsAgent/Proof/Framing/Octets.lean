import SyslogDtlsAgent.Library.PrefixCode
import SyslogDtlsAgent.Proof.Config.Validate
import SyslogDtlsAgent.Proof.Framing.Decimal
import SyslogDtlsAgent.Proof.Relay.Moves

/-!
# Octet counting

What the collector makes of the frames. It reads the digits in front of the first space and then as many
bytes as they say, so a frame needs no escaping, whatever its message holds.
-/

namespace SyslogDtlsAgent

open Library Byte

/-- One frame off the front of the input: its message, and the input after it. -/
def unframe (input : Bytes) : Option (Bytes × Bytes) :=
  let digits := input.takeWhile (· != space)
  let rest := (input.dropWhile (· != space)).drop 1
  let count := digitsValue digits
  if space ∈ input ∧ digits ≠ [] ∧ digits.all isDigit ∧ count ≤ rest.length then
    some (rest.take count, rest.drop count)
  else none

theorem space_notMem_decimal (n : Nat) : ∀ b ∈ decimal n, (b != space) = true := by
  intro b hb
  have hdigit := (decimal_numeral n).1.digits b hb
  rw [bne_iff_ne]
  rintro rfl
  exact absurd hdigit (by decide)

theorem frame_readsBack : ReadsBack frame unframe := by
  intro m rest
  have hframe : frame m ++ rest = decimal m.length ++ space :: (m ++ rest) := by
    rw [frame, List.append_assoc, List.cons_append]
  have hnumeral := (decimal_numeral m.length).1
  have hspaces := space_notMem_decimal m.length
  have hdigits : (frame m ++ rest).takeWhile (· != space) = decimal m.length := by
    rw [hframe, List.takeWhile_append_of_pos hspaces, List.takeWhile_cons_of_neg (by simp), List.append_nil]
  have hrest : ((frame m ++ rest).dropWhile (· != space)).drop 1 = m ++ rest := by
    rw [hframe, List.dropWhile_append_of_pos hspaces, List.dropWhile_cons_of_neg (by simp)]
    rfl
  have hmem : space ∈ frame m ++ rest := by
    rw [hframe]
    simp
  have hall : (decimal m.length).all isDigit = true := List.all_eq_true.mpr hnumeral.digits
  simp only [unframe, hdigits, hrest, digitsValue_decimal]
  rw [if_pos ⟨hmem, hnumeral.nonempty, hall, by simp⟩, List.take_left, List.drop_left]

theorem frame_nonempty (m : Bytes) : frame m ≠ [] := by
  simp [frame]

/-- A datagram is accepted if it is valid and within the limit. -/
theorem Move.accepted_inv {lib : External} {cfg : Config} {w w' : World} {events : List Event} {m : Message}
    (h : Move lib cfg w w' events) (hm : .accepted m ∈ events) :
    validMessage lib m.payload = true ∧ m.payload.length ≤ cfg.listener.maxMessageBytes := by
  cases h with
  | accepted ip payload wallMs hrefusal hip =>
      obtain ⟨-, -, hlength, hvalid, -⟩ := refusal_eq_none.mp hrefusal
      have hm : m = ⟨payload, ip⟩ := by simpa using hm
      rw [hm]
      exact ⟨hvalid, hlength⟩
  | quiet shared session pendingFrame sessions internal place =>
      exact absurd (internal _ hm) (by simp [Event.isInternal])
  | refused | connectFailed | opened | established | polled | oversized | taken | wrote => simp at hm
  | forwarded | closed | drained => simp at hm

theorem accepted_spec {lib : External} {cfg : Config} {boot : Boot} (actions : List Action) :
    ∀ m, .accepted m ∈ (relay lib cfg boot).trace actions →
      validMessage lib m.payload = true ∧ m.payload.length ≤ cfg.listener.maxMessageBytes := by
  refine (relay lib cfg boot).induction (P := fun _ events => ∀ m, .accepted m ∈ events →
    validMessage lib m.payload = true ∧ m.payload.length ≤ cfg.listener.maxMessageBytes)
    (fun m hm => absurd hm List.not_mem_nil) (fun w events a ih m hm => ?_) actions
  rcases List.mem_append.mp hm with hm | hm
  · exact ih m hm
  · exact (move_next w a).accepted_inv hm

/-- An empty datagram is not valid. -/
theorem payload_nonempty {lib : External} {m : Bytes} (h : validMessage lib m = true) : m ≠ [] := by
  rintro rfl
  cases h

/-- Frames decode to their messages, one after another and whatever the messages hold, and a frame of an
accepted message has a plain count and fits a DTLS record. -/
theorem framing_is_uniquely_decodable :
    (∀ m rest, unframe (frame m ++ rest) = some (m, rest)) ∧ Function.Injective frame ∧
      (∀ m m', frame m <+: frame m' → frame m = frame m') ∧
      (∀ messages : List Bytes, decodeAll unframe (messages.flatMap frame).length (messages.flatMap frame) =
        some messages) ∧
      ∀ lib cfg boot, cfg.validate lib = .ok () → ∀ actions m,
        .accepted m ∈ (relay lib cfg boot).trace actions →
          (frame m.payload).head? ≠ some zero ∧ (frame m.payload).length ≤ 16384 := by
  refine ⟨frame_readsBack, frame_readsBack.injective, fun m m' hstarts => ?_, fun messages => ?_, ?_⟩
  · rw [frame_readsBack.prefix_free hstarts]
  · exact frame_readsBack.decodeAll_flatMap frame_nonempty messages (Nat.le_refl _)
  · intro lib cfg boot hvalid actions m hm
    obtain ⟨hpayload, hlength⟩ := accepted_spec actions m hm
    obtain ⟨hsettings, -⟩ := Config.validate_eq_ok.mp hvalid
    have hlimit := hsettings.maxMessageBytes.2
    obtain ⟨hnumeral, hhead⟩ := decimal_numeral m.payload.length
    have hpositive : 0 < m.payload.length := List.length_pos_iff.mpr (payload_nonempty hpayload)
    have hcount : (decimal m.payload.length).length ≤ 5 := decimal_length_le (by omega)
    constructor
    · rw [frame, List.head?_append_of_ne_nil _ hnumeral.nonempty]
      exact hhead hpositive
    · rw [frame, List.length_append, List.length_cons]
      omega

/-- Messages that look like counts. -/
example : decodeAll unframe 15 ([asBytes "2 ", [], asBytes "0 7 \n", [0xff, 0x20]].flatMap frame) =
    some [asBytes "2 ", [], asBytes "0 7 \n", [0xff, 0x20]] := by
  decide +kernel

end SyslogDtlsAgent
