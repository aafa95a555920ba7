import SyslogDtlsAgent.Core.Relay
import SyslogDtlsAgent.Library.Admission

/-!
# The ledger by source

`Sources` is told about each datagram twice, when it arrives and when it is dropped or forwarded, and
the second call does nothing where the address has no row. `SourceBooks` says why no row ever shows
it: the addresses received and not settled yet have all been seen, and an address that was seen
without getting a row never gets one.
-/

namespace SyslogDtlsAgent

open Library

variable {cfg : Config}

/-- What is true of the row of `ip` while the messages from `outstanding` are neither dropped nor
forwarded. -/
structure RowBooks (cfg : Config) (outstanding : List IpAddr) (ip : IpAddr) (row : SourceStatus) :
    Prop where
  address : row.ip = ip
  allowed : row.allowed = sourceAllowed cfg ip
  balance : row.messagesReceived =
    row.messagesForwarded + row.messagesDropped + outstanding.count ip
  denied : sourceAllowed cfg ip = false → row.messagesForwarded = 0

structure SourceBooks (cfg : Config) (outstanding sightings : List IpAddr) (sources : Sources) :
    Prop where
  tracked : ∀ ip, ip ∈ sources.entries ↔ ip ∈ admitted sourceLimit sightings
  row : ∀ ip source, sources.entries.lookup ip = some source →
    RowBooks cfg outstanding ip source.status
  seen : ∀ ip ∈ outstanding, ip ∈ sightings
  total : sources.entries.total (fun source => source.status.messagesReceived) +
    sources.untrackedMessages = sightings.length
  untracked : sources.untrackedMessages =
    sightings.countP fun ip => ip ∉ admitted sourceLimit sightings

theorem SourceBooks.empty : SourceBooks cfg [] [] Sources.empty := by
  constructor <;> simp [Sources.empty, AList.total]

theorem SourceBooks.keys {outstanding sightings : List IpAddr} {sources : Sources}
    (h : SourceBooks cfg outstanding sightings sources) :
    sources.entries.keys.Perm (admitted sourceLimit sightings) :=
  (List.perm_ext_iff_of_nodup sources.entries.keys_nodup (nodup_admitted _ _)).mpr h.tracked

theorem SourceBooks.size {outstanding sightings : List IpAddr} {sources : Sources}
    (h : SourceBooks cfg outstanding sightings sources) :
    sources.entries.size = (admitted sourceLimit sightings).length := by
  rw [← h.keys.length_eq, AList.keys, List.keys, List.length_map, AList.size]

/-- A message from `ip` joins the outstanding ones: rows of other addresses do not notice. -/
theorem RowBooks.other {outstanding : List IpAddr} {ip other : IpAddr} {row : SourceStatus}
    (h : RowBooks cfg outstanding other row) (hother : other ≠ ip) :
    RowBooks cfg (ip :: outstanding) other row where
  address := h.address
  allowed := h.allowed
  balance := by rw [List.count_cons_of_ne hother.symm, h.balance]
  denied := h.denied

theorem RowBooks.received {outstanding : List IpAddr} {ip : IpAddr} {source : Source} {wallMs : Nat}
    (h : RowBooks cfg outstanding ip source.status) :
    RowBooks cfg (ip :: outstanding) ip (source.countReceived wallMs).status where
  address := h.address
  allowed := h.allowed
  balance := by
    have := h.balance
    rw [List.count_cons_self]
    simp only [Source.countReceived]
    omega
  denied := h.denied

theorem SourceBooks.seen_received {outstanding sightings : List IpAddr} {sources : Sources}
    (h : SourceBooks cfg outstanding sightings sources) (ip : IpAddr) :
    ∀ other ∈ ip :: outstanding, other ∈ sightings ++ [ip] := by
  intro other hother
  rcases List.mem_cons.mp hother with rfl | hother
  · simp
  · exact List.mem_append_left _ (h.seen other hother)

/-- The address has a row. -/
theorem SourceBooks.received_known {outstanding sightings : List IpAddr} {sources : Sources}
    (h : SourceBooks cfg outstanding sightings sources) {ip : IpAddr} {source : Source}
    (hentry : sources.entries.lookup ip = some source) (wallMs : Nat) :
    SourceBooks cfg (ip :: outstanding) (sightings ++ [ip])
      { sources with entries := sources.entries.insert ip (source.countReceived wallMs) } := by
  have hmem : ip ∈ sources.entries := AList.mem_iff_lookup.mpr ⟨source, hentry⟩
  have hin := (h.tracked ip).mp hmem
  have hadmitted : admitted sourceLimit (sightings ++ [ip]) = admitted sourceLimit sightings := by
    rw [admitted_concat, if_neg (fun hnew => hnew.1 (mem_of_admitted hin))]
  have htotal := h.total
  refine ⟨?_, ?_, h.seen_received ip, ?_, ?_⟩
  · intro other
    rw [hadmitted, AList.mem_insert, h.tracked]
    constructor
    · rintro (rfl | hother)
      · exact hin
      · exact hother
    · exact .inr
  · intro other row hrow
    rw [AList.lookup_insert'] at hrow
    split at hrow
    · rename_i hsame
      cases hrow
      exact hsame ▸ (h.row ip source hentry).received
    · rename_i hother
      exact (h.row other row hrow).other hother
  · have hmodify := AList.total_modify hentry (Source.countReceived wallMs)
      (fun source => source.status.messagesReceived)
    simp only [AList.modify, hentry, Source.countReceived] at hmodify
    simp only [List.length_append, List.length_singleton, Source.countReceived]
    omega
  · simp [hadmitted, h.untracked, hin]

/-- The address has no row, and the table has no room. -/
theorem SourceBooks.received_full {outstanding sightings : List IpAddr} {sources : Sources}
    (h : SourceBooks cfg outstanding sightings sources) {ip : IpAddr} (hout : ip ∉ sources.entries)
    (hfull : sourceLimit ≤ sources.entries.size) :
    SourceBooks cfg (ip :: outstanding) (sightings ++ [ip])
      { sources with untrackedMessages := sources.untrackedMessages + 1 } := by
  have houtside : ip ∉ admitted sourceLimit sightings := fun hin => hout ((h.tracked ip).mpr hin)
  have hadmitted : admitted sourceLimit (sightings ++ [ip]) = admitted sourceLimit sightings := by
    rw [admitted_concat, if_neg (fun hnew => absurd (h.size ▸ hfull) (Nat.not_le_of_lt hnew.2))]
  have htotal := h.total
  refine ⟨?_, ?_, h.seen_received ip, ?_, ?_⟩
  · rw [hadmitted]
    exact h.tracked
  · intro other row hrow
    refine (h.row other row hrow).other ?_
    rintro rfl
    exact hout (AList.mem_iff_lookup.mpr ⟨row, hrow⟩)
  · simp only [List.length_append, List.length_singleton]
    omega
  · simp [hadmitted, h.untracked, houtside]

/-- The address gets a new row. -/
theorem SourceBooks.received_new {outstanding sightings : List IpAddr} {sources : Sources}
    (h : SourceBooks cfg outstanding sightings sources) {ip : IpAddr} (hout : ip ∉ sources.entries)
    (hfull : sources.entries.size < sourceLimit) (wallMs : Nat) :
    SourceBooks cfg (ip :: outstanding) (sightings ++ [ip])
      { sources with
        entries := sources.entries.insert ip
          (Source.countReceived wallMs (Source.new ip (sourceAllowed cfg ip) wallMs)) } := by
  have hroom : (admitted sourceLimit sightings).length < sourceLimit := h.size ▸ hfull
  have hnew : ip ∉ sightings := fun hin => hout ((h.tracked ip).mpr (admitted_of_room hin hroom))
  have hadmitted : admitted sourceLimit (sightings ++ [ip]) = admitted sourceLimit sightings ++ [ip] := by
    rw [admitted_concat, if_pos ⟨hnew, hroom⟩]
  have htotal := h.total
  refine ⟨?_, ?_, h.seen_received ip, ?_, ?_⟩
  · intro other
    rw [hadmitted, AList.mem_insert, h.tracked, List.mem_append, List.mem_singleton]
    exact or_comm
  · intro other row hrow
    rw [AList.lookup_insert'] at hrow
    split at hrow
    · rename_i hsame
      cases hrow
      have hnone : outstanding.count ip = 0 := List.count_eq_zero.mpr fun hin => hnew (h.seen ip hin)
      rw [hsame]
      exact RowBooks.received ⟨rfl, rfl, by rw [hnone]; rfl, fun _ => rfl⟩
    · rename_i hother
      exact (h.row other row hrow).other hother
  · rw [AList.total_insert hout]
    simp only [Source.countReceived, Source.new, List.length_append, List.length_singleton]
    omega
  · have hself : List.countP (fun other => decide (other ∉ admitted sourceLimit sightings ++ [ip])) [ip] = 0 := by
      simp
    rw [hadmitted, List.countP_append, hself, Nat.add_zero, h.untracked]
    refine List.countP_congr fun other hother => ?_
    have hne : other ≠ ip := fun heq => hnew (heq ▸ hother)
    simp [hne]

theorem SourceBooks.received {outstanding sightings : List IpAddr} {sources : Sources}
    (h : SourceBooks cfg outstanding sightings sources) (ip : IpAddr) (wallMs : Nat) :
    SourceBooks cfg (ip :: outstanding) (sightings ++ [ip])
      (sources.received ip (sourceAllowed cfg ip) wallMs) := by
  unfold Sources.received
  cases hentry : sources.entries.lookup ip with
  | some source =>
      have hmem : ip ∈ sources.entries := AList.mem_iff_lookup.mpr ⟨source, hentry⟩
      rw [if_neg (fun hfull => hfull.1 hmem)]
      exact h.received_known hentry wallMs
  | none =>
      have hout : ip ∉ sources.entries := AList.lookup_eq_none.mp hentry
      by_cases hfull : sourceLimit ≤ sources.entries.size
      · rw [if_pos ⟨hout, hfull⟩]
        exact h.received_full hout hfull
      · rw [if_neg (fun hboth => hfull hboth.2)]
        exact h.received_new hout (Nat.lt_of_not_le hfull) wallMs

theorem RowBooks.perm {left right : List IpAddr} {ip : IpAddr} {row : SourceStatus}
    (h : RowBooks cfg left ip row) (hperm : left.Perm right) : RowBooks cfg right ip row where
  address := h.address
  allowed := h.allowed
  balance := hperm.count_eq ip ▸ h.balance
  denied := h.denied

theorem SourceBooks.perm {left right sightings : List IpAddr} {sources : Sources}
    (h : SourceBooks cfg left sightings sources) (hperm : left.Perm right) :
    SourceBooks cfg right sightings sources where
  tracked := h.tracked
  row ip source hsource := (h.row ip source hsource).perm hperm
  seen ip hip := h.seen ip (hperm.mem_iff.mpr hip)
  total := h.total
  untracked := h.untracked

/-- An outstanding message is settled: its own row changes as `change` says, if it has one. -/
theorem SourceBooks.settle {outstanding sightings : List IpAddr} {sources : Sources} {ip : IpAddr}
    {change : Source → Source} (h : SourceBooks cfg (ip :: outstanding) sightings sources)
    (hchange : ∀ source, RowBooks cfg (ip :: outstanding) ip source.status →
      RowBooks cfg outstanding ip (change source).status)
    (hsame : ∀ source, (change source).status.messagesReceived = source.status.messagesReceived) :
    SourceBooks cfg outstanding sightings
      { sources with entries := sources.entries.modify ip change } where
  tracked other := by rw [AList.mem_modify, h.tracked]
  row other row hrow := by
    rw [AList.lookup_modify] at hrow
    split at hrow
    · rename_i hsame
      obtain ⟨source, hsource, rfl⟩ := Option.map_eq_some_iff.mp hrow
      rw [hsame]
      exact hchange source (h.row ip source hsource)
    · rename_i hother
      have := h.row other row hrow
      exact ⟨this.address, this.allowed, by rw [this.balance, List.count_cons_of_ne (Ne.symm hother)],
        this.denied⟩
  seen other hother := h.seen other (List.mem_cons_of_mem ip hother)
  total := by rw [AList.total_modify_same _ hsame, h.total]
  untracked := h.untracked

theorem SourceBooks.dropped {outstanding sightings : List IpAddr} {sources : Sources} {ip : IpAddr}
    (h : SourceBooks cfg (ip :: outstanding) sightings sources) :
    SourceBooks cfg outstanding sightings (sources.dropped ip) := by
  refine h.settle (fun source hrow => ?_) (fun _ => rfl)
  have hbalance := hrow.balance
  rw [List.count_cons_self] at hbalance
  refine ⟨hrow.address, hrow.allowed, ?_, hrow.denied⟩
  simp only [Source.countDropped]
  omega

/-- Only messages from allowed addresses are ever forwarded. -/
theorem SourceBooks.forwarded {outstanding sightings : List IpAddr} {sources : Sources} {ip : IpAddr}
    (h : SourceBooks cfg (ip :: outstanding) sightings sources) (hallowed : sourceAllowed cfg ip = true)
    (second : Nat) : SourceBooks cfg outstanding sightings (sources.forwarded ip second) := by
  refine h.settle (fun source hrow => ?_) (fun _ => rfl)
  have hbalance := hrow.balance
  rw [List.count_cons_self] at hbalance
  refine ⟨hrow.address, hrow.allowed, ?_, fun hdenied => ?_⟩
  · simp only [Source.countForwarded]
    omega
  · rw [hallowed] at hdenied
    cases hdenied

/-! ### The rows of a snapshot -/

theorem SourceBooks.rows_ip {outstanding sightings : List IpAddr} {sources : Sources}
    (h : SourceBooks cfg outstanding sightings sources) (second : Nat) :
    ((sources.snapshot second).map SourceStatus.ip).Perm (admitted sourceLimit sightings) :=
  (Sources.snapshot_ips (fun ip source hsource => (h.row ip source hsource).address) second).trans h.keys

theorem SourceBooks.rows_total {outstanding sightings : List IpAddr} {sources : Sources}
    (h : SourceBooks cfg outstanding sightings sources) (second : Nat) :
    ((sources.snapshot second).map SourceStatus.messagesReceived).sum + sources.untrackedMessages =
      sightings.length := by
  rw [((Sources.snapshot_perm sources second).map _).sum_eq, List.map_map]
  exact h.total

theorem SourceBooks.rows_books {outstanding sightings : List IpAddr} {sources : Sources}
    (h : SourceBooks cfg outstanding sightings sources) {second : Nat} {row : SourceStatus}
    (hrow : row ∈ sources.snapshot second) : RowBooks cfg outstanding row.ip row := by
  obtain ⟨e, he, rfl⟩ := List.mem_map.mp ((Sources.snapshot_perm sources second).mem_iff.mp hrow)
  have hbooks := h.row e.1 e.2 (AList.mem_entries_iff.mp he)
  have hip : (Source.row second e.2).ip = e.1 := hbooks.address
  rw [hip]
  exact ⟨hip, hbooks.allowed, hbooks.balance, hbooks.denied⟩

end SyslogDtlsAgent
