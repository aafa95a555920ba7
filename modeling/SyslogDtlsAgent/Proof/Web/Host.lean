import SyslogDtlsAgent.Cli.Web
import SyslogDtlsAgent.Proof.Net.Display

/-!
# The host check

Which `Host` headers `valid_host` accepts, against what a client sends for a URL that names the listener. The
check always wants a port; a client leaves the default port out.
-/

namespace SyslogDtlsAgent

/-- The addresses under which the listener can be reached. -/
def SocketAddr.Reaches (address : SocketAddr) (ip : IpAddr) : Prop :=
  ip = address.ip ∨ (address.ip.isUnspecified = true ∧ ip.isV4 = address.ip.isV4)

/-- The host part names the listener, in the given spelling of addresses. -/
inductive Names (spelling : IpAddr → List Char → Prop) (address : SocketAddr) : List Char → Prop where
  | literal {ip : IpAddr} {text : List Char} (h : spelling ip text) (hip : address.Reaches ip) :
      Names spelling address text
  | localhost (h : address.ip.isLoopback = true) : Names spelling address "localhost".toList

/-- What a client writes behind the host: nothing for the default port. -/
def clientPort (port : Nat) : List Char := if port = 80 then [] else ':' :: Nat.toDigits 10 port

/-- The port part of a `Host` header, and the port it means. -/
inductive PortPart : Nat → List Char → Prop where
  | default : PortPart 80 []
  | given {port : Nat} {digits : List Char} (h : Digits 10 port digits) : PortPart port (':' :: digits)

/-- The check accepts the host of every URL that names the listener, as a client sends it, and nothing whose host
or port, left out or not, is another. -/
structure HostExact (address : SocketAddr) : Prop where
  accepts : ∀ name, Names Literal address name →
    validHost (String.ofList (name ++ clientPort address.port)) address = true
  rejects : ∀ host : String, (¬ ∃ name port, host.toList = name ++ port ∧ Names ZonedLiteral address name ∧
    PortPart address.port port) → validHost host address = false

/-- What the check accepts. -/
theorem validHost_spec {host : String} {address : SocketAddr} (h : validHost host address = true) :
    ∃ name digits, host.toList = name ++ ':' :: digits ∧ Names ZonedLiteral address name ∧
      Digits 10 address.port digits := by
  unfold validHost at h
  split_ifs at h with hlocal
  · obtain ⟨hloopback, hhost⟩ := Bool.and_eq_true_iff.mp hlocal
    refine ⟨_, Nat.toDigits 10 address.port, ?_, .localhost hloopback, digits_toDigits (.inl rfl) _⟩
    rw [eq_of_beq hhost, String.toList_append, toList_toString]
    rfl
  · split at h
    · cases h
    · rename_i parsed hparsed
      obtain ⟨name, digits, hhost, hname, hdigits⟩ := parseSocketAddr_spec hparsed
      simp only [Bool.and_eq_true, beq_iff_eq, Bool.or_eq_true] at h
      exact ⟨name, digits, hhost, .literal hname h.2, h.1 ▸ hdigits⟩

/-- The check accepts the listener's names together with its port. -/
theorem validHost_names {address : SocketAddr} (hport : address.port ≤ 65535) {name : List Char}
    (h : Names Literal address name) :
    validHost (String.ofList (name ++ ':' :: Nat.toDigits 10 address.port)) address = true := by
  unfold validHost
  split_ifs with hlocal
  · rfl
  · cases h with
    | literal hname hip =>
        rw [parseSocketAddr_literal hname (digits_toDigits (.inl rfl) _) hport]
        simp only [beq_self_eq_true, Bool.true_and, Bool.or_eq_true, Bool.and_eq_true, beq_iff_eq]
        exact hip
    | localhost hloopback =>
        refine absurd ?_ hlocal
        rw [hloopback, Bool.true_and, beq_iff_eq, ← String.toList_inj, String.toList_ofList, String.toList_append,
          toList_toString]
        rfl

theorem Octet.no_colon {value : Nat} {text : List Char} (h : Octet value text) : ':' ∉ text := by
  intro hmem
  have hdigit := h.digits.isSome hmem
  cases hdigit

/-- An address alone has no port at its end. -/
theorem Literal.no_port {ip : IpAddr} {port : Nat} {text name digits : List Char} (h : Literal ip text)
    (hdigits : Digits 10 port digits) : text ≠ name ++ ':' :: digits := by
  cases h with
  | v4 h =>
      obtain ⟨ha, hb, hc, hd⟩ := h
      intro htext
      have hmem := congrArg (':' ∈ ·) htext
      simp [ha.no_colon, hb.no_colon, hc.no_colon, hd.no_colon] at hmem
  | @v6 bits text h =>
      intro htext
      obtain ⟨front, c, rfl⟩ := (List.eq_nil_or_concat digits).resolve_left hdigits.ne_nil
      have hlast : some ']' = some c := by
        simpa [List.getLast?_cons] using congrArg List.getLast? htext
      obtain rfl := Option.some.inj hlast
      have hdigit := hdigits.isSome (c := ']') (by simp)
      cases hdigit

/-- The host check is exact unless the listener has the default port. -/
theorem host_check_exact_iff (address : SocketAddr) (hport : 1 ≤ address.port ∧ address.port ≤ 65535) :
    HostExact address ↔ address.port ≠ 80 := by
  constructor
  · intro h hdefault
    obtain ⟨text, htext⟩ := exists_literal address.ip
    have haccepted := h.accepts text (.literal htext (.inl rfl))
    obtain ⟨name, digits, hhost, -, hdigits⟩ := validHost_spec haccepted
    rw [clientPort, if_pos hdefault, List.append_nil, String.toList_ofList] at hhost
    exact htext.no_port hdigits hhost
  · intro hother
    constructor
    · intro name hname
      rw [clientPort, if_neg hother]
      exact validHost_names hport.2 hname
    · intro host hnone
      rw [← Bool.not_eq_true]
      intro haccepted
      obtain ⟨name, digits, hhost, hname, hdigits⟩ := validHost_spec haccepted
      exact hnone ⟨name, ':' :: digits, hhost, hname, .given hdigits⟩

theorem host_check_exact_on_the_default_address : HostExact ⟨.v4 0x7f000001#32, 1080⟩ :=
  (host_check_exact_iff ⟨.v4 0x7f000001#32, 1080⟩ (by decide)).mpr (by decide)

/-- What a client sends for `http://127.0.0.1/` and `http://localhost/` to a listener on port 80. -/
theorem host_check_refuses_the_default_port :
    let address : SocketAddr := ⟨.v4 0x7f000001#32, 80⟩
    (Names Literal address "127.0.0.1".toList ∧ clientPort address.port = [] ∧ validHost "127.0.0.1" address = false) ∧
      Names Literal address "localhost".toList ∧ validHost "localhost" address = false := by
  intro address
  have htext : Literal address.ip "127.0.0.1".toList := .v4 (displayV4_text 0x7f000001#32)
  exact ⟨⟨.literal htext (.inl rfl), rfl, by decide⟩, .localhost (by decide), by decide⟩

end SyslogDtlsAgent
