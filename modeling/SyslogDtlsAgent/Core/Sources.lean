import SyslogDtlsAgent.Core.Net
import SyslogDtlsAgent.Library.Ring
import SyslogDtlsAgent.Library.Table

/-!
# Traffic by source

`sources.rs`: for each of the first 256 source addresses its counters and two rings of buckets, one
of 61 seconds and one of 1440 minutes. The `BTreeMap` of the source is a table; its key order only
shows in `snapshot`, which sorts.
-/

namespace SyslogDtlsAgent

open Library

def sourceLimit : Nat := 256

/-- A row of the status report. -/
structure SourceStatus where
  ip : IpAddr
  allowed : Bool
  messagesReceived : Nat
  messagesForwarded : Nat
  messagesDropped : Nat
  messagesPerSecond : Nat
  messagesPerMinute : Nat
  messagesLast24h : Nat
  lastSeenMs : Nat
  deriving DecidableEq

structure Source where
  status : SourceStatus
  seconds : Ring 61
  minutes : Ring 1440

structure Sources where
  entries : Table IpAddr Source
  untrackedMessages : Nat

/-- A source seen for the first time. -/
def Source.new (ip : IpAddr) (allowed : Bool) (wallMs : Nat) : Source where
  status :=
    { ip, allowed
      messagesReceived := 0
      messagesForwarded := 0
      messagesDropped := 0
      messagesPerSecond := 0
      messagesPerMinute := 0
      messagesLast24h := 0
      lastSeenMs := wallMs }
  seconds := Ring.empty
  minutes := Ring.empty

def Source.countReceived (wallMs : Nat) (source : Source) : Source :=
  { source with status :=
      { source.status with
        messagesReceived := source.status.messagesReceived + 1
        lastSeenMs := wallMs } }

def Source.countDropped (source : Source) : Source :=
  { source with status :=
      { source.status with messagesDropped := source.status.messagesDropped + 1 } }

def Source.countForwarded (second : Nat) (source : Source) : Source where
  status := { source.status with messagesForwarded := source.status.messagesForwarded + 1 }
  seconds := source.seconds.record second
  minutes := source.minutes.record (second / 60)

/-- The row of one source at a given second. -/
def Source.row (second : Nat) (source : Source) : SourceStatus :=
  let minute := second / 60
  { source.status with
    -- Last completed second and last 60 completed seconds.
    messagesPerSecond := source.seconds.total fun tick => tick < second ∧ second - tick = 1
    messagesPerMinute := source.seconds.total fun tick => tick < second ∧ second - tick ≤ 60
    -- Includes the current minute; oldest boundary has 1-minute precision.
    messagesLast24h := source.minutes.total fun tick => tick ≤ minute ∧ minute - tick < 1440 }

namespace Sources

def empty : Sources := ⟨∅, 0⟩

def received (sources : Sources) (ip : IpAddr) (allowed : Bool) (wallMs : Nat) : Sources :=
  if ip ∉ sources.entries ∧ sourceLimit ≤ sources.entries.size then
    { sources with untrackedMessages := sources.untrackedMessages + 1 }
  else
    let entry := (sources.entries.lookup ip).getD (Source.new ip allowed wallMs)
    { sources with entries := sources.entries.insert ip (Source.countReceived wallMs entry) }

def dropped (sources : Sources) (ip : IpAddr) : Sources :=
  { sources with entries := sources.entries.modify ip Source.countDropped }

def forwarded (sources : Sources) (ip : IpAddr) (second : Nat) : Sources :=
  { sources with entries := sources.entries.modify ip (Source.countForwarded second) }

def snapshot (sources : Sources) (second : Nat) : List SourceStatus :=
  (sources.entries.entries.mergeSort fun a b => a.1.le b.1).map fun e => Source.row second e.2

theorem snapshot_perm (sources : Sources) (second : Nat) :
    (sources.snapshot second).Perm (sources.entries.entries.map fun e => Source.row second e.2) :=
  (List.mergeSort_perm _ _).map _

/-- When every row carries its key as its address, a snapshot has one row for each key. -/
theorem snapshot_ips {sources : Sources}
    (haddress : ∀ ip source, sources.entries.lookup ip = some source → source.status.ip = ip)
    (second : Nat) : ((sources.snapshot second).map SourceStatus.ip).Perm sources.entries.keys := by
  have hkeys : (sources.entries.entries.map fun e => Source.row second e.2).map SourceStatus.ip =
      sources.entries.keys := by
    rw [List.map_map, AList.keys, List.keys]
    exact List.map_congr_left fun e he => haddress e.1 e.2 (AList.mem_entries_iff.mp he)
  exact hkeys ▸ (snapshot_perm sources second).map SourceStatus.ip

end Sources

end SyslogDtlsAgent
