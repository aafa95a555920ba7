import SyslogDtlsAgent.Core.Sources
import SyslogDtlsAgent.Library.Machine

/-!
# The traffic windows

`Sources` as a machine of its own, driven by its three calls in any order. A `forwarded` call for an
address that has a row is a credit; the rings of a row represent the seconds of its credits, so each
window of a snapshot counts credits.
-/

namespace SyslogDtlsAgent

open Library

inductive SourceCall where
  | received (ip : IpAddr) (allowed : Bool) (wallMs : Nat)
  | dropped (ip : IpAddr)
  | forwarded (ip : IpAddr) (second : Nat)

structure Credit where
  ip : IpAddr
  second : Nat
  deriving DecidableEq

def Sources.call (sources : Sources) : SourceCall → Sources
  | .received ip allowed wallMs => sources.received ip allowed wallMs
  | .dropped ip => sources.dropped ip
  | .forwarded ip second => sources.forwarded ip second

/-- A `forwarded` call made while its address is tracked. -/
def Sources.credit (sources : Sources) : SourceCall → List Credit
  | .forwarded ip second => if ip ∈ sources.entries then [⟨ip, second⟩] else []
  | _ => []

/-- The `Sources` values built from the default, with their credits. -/
def sourceCalls : Machine Sources SourceCall Credit where
  init := Sources.empty
  next := Sources.call
  emit := Sources.credit

/-- The second arguments of the `forwarded` calls. -/
def forwardSeconds (calls : List SourceCall) : List Nat :=
  calls.filterMap fun
    | .forwarded _ second => some second
    | _ => none

/-- The seconds of the credits of one address. -/
def creditSeconds (ip : IpAddr) (credits : List Credit) : List Nat :=
  (credits.filter fun c => c.ip = ip).map Credit.second

theorem creditSeconds_append (ip : IpAddr) (left right : List Credit) :
    creditSeconds ip (left ++ right) = creditSeconds ip left ++ creditSeconds ip right := by
  simp only [creditSeconds, List.filter_append, List.map_append]

theorem creditSeconds_singleton (ip : IpAddr) (c : Credit) :
    creditSeconds ip [c] = if c.ip = ip then [c.second] else [] := by
  simp only [creditSeconds, List.filter_cons, List.filter_nil, decide_eq_true_eq]
  split <;> rfl

/-- A row represents the seconds of its credits. -/
structure Source.Represents (source : Source) (ip : IpAddr) (seconds : List Nat) : Prop where
  address : source.status.ip = ip
  forwarded : source.status.messagesForwarded = seconds.length
  bySecond : source.seconds.Represents seconds
  byMinute : source.minutes.Represents (seconds.map (· / 60))

structure Windows (sources : Sources) (credits : List Credit) : Prop where
  row : ∀ ip source, sources.entries.lookup ip = some source →
    source.Represents ip (creditSeconds ip credits)
  untracked : ∀ ip, ip ∉ sources.entries → creditSeconds ip credits = []

theorem Source.Represents.countForwarded {source : Source} {ip : IpAddr} {seconds : List Nat}
    (h : source.Represents ip seconds) {second : Nat} (hnewest : ∀ old ∈ seconds, old ≤ second) :
    (source.countForwarded second).Represents ip (seconds ++ [second]) where
  address := h.address
  forwarded := by
    rw [List.length_append, ← h.forwarded]
    rfl
  bySecond := h.bySecond.record hnewest
  byMinute := by
    rw [List.map_append]
    refine h.byMinute.record fun old hold => ?_
    obtain ⟨before, hbefore, rfl⟩ := List.mem_map.mp hold
    exact Nat.div_le_div_right (hnewest before hbefore)

theorem Windows.received {sources : Sources} {credits : List Credit} (h : Windows sources credits)
    (ip : IpAddr) (allowed : Bool) (wallMs : Nat) :
    Windows (sources.received ip allowed wallMs) credits := by
  unfold Sources.received
  split
  · exact ⟨h.row, h.untracked⟩
  · refine ⟨fun other source hsource => ?_, fun other hother => ?_⟩
    · rw [AList.lookup_insert'] at hsource
      split at hsource
      · rename_i hsame
        cases hsource
        rw [hsame]
        cases hentry : sources.entries.lookup ip with
        | some source =>
            have := h.row ip source hentry
            exact ⟨this.address, this.forwarded, this.bySecond, this.byMinute⟩
        | none =>
            rw [h.untracked ip (AList.lookup_eq_none.mp hentry)]
            exact ⟨rfl, rfl, Ring.represents_empty, Ring.represents_empty⟩
      · exact h.row other source hsource
    · exact h.untracked other fun hin => hother ((AList.mem_insert _).mpr (.inr hin))

theorem Windows.dropped {sources : Sources} {credits : List Credit} (h : Windows sources credits)
    (ip : IpAddr) : Windows (sources.dropped ip) credits := by
  refine ⟨fun other source hsource => ?_, fun other hother => h.untracked other ?_⟩
  · rw [Sources.dropped, AList.lookup_modify] at hsource
    split at hsource
    · rename_i hsame
      obtain ⟨old, hold, rfl⟩ := Option.map_eq_some_iff.mp hsource
      have := h.row ip old hold
      rw [hsame]
      exact ⟨this.address, this.forwarded, this.bySecond, this.byMinute⟩
    · exact h.row other source hsource
  · exact fun hin => hother (AList.mem_modify.mpr hin)

theorem Windows.forwarded {sources : Sources} {credits : List Credit} (h : Windows sources credits)
    {second : Nat} (hnewest : ∀ c ∈ credits, c.second ≤ second) (ip : IpAddr) :
    Windows (sources.forwarded ip second)
      (credits ++ sources.credit (.forwarded ip second)) := by
  have hold : ∀ other, ∀ old ∈ creditSeconds other credits, old ≤ second := by
    intro other old hold
    obtain ⟨c, hc, rfl⟩ := List.mem_map.mp hold
    exact hnewest c (List.mem_of_mem_filter hc)
  have hothers : ∀ other, other ≠ ip ∨ ip ∉ sources.entries →
      creditSeconds other (credits ++ sources.credit (.forwarded ip second)) =
        creditSeconds other credits := by
    intro other hother
    rw [creditSeconds_append, Sources.credit]
    split
    · rename_i hin
      have hne : ip ≠ other := fun heq => hother.elim (fun h => h heq.symm) (fun h => h hin)
      rw [creditSeconds_singleton, if_neg hne, List.append_nil]
    · simp [creditSeconds]
  refine ⟨fun other source hsource => ?_, fun other hother => ?_⟩
  · rw [Sources.forwarded, AList.lookup_modify] at hsource
    split at hsource
    · rename_i hsame
      obtain ⟨old, hentry, rfl⟩ := Option.map_eq_some_iff.mp hsource
      have hin : ip ∈ sources.entries := AList.mem_iff_lookup.mpr ⟨old, hentry⟩
      rw [hsame, creditSeconds_append, Sources.credit, if_pos hin, creditSeconds_singleton, if_pos rfl]
      exact (h.row ip old hentry).countForwarded (hold ip)
    · rename_i hother
      rw [hothers other (.inl hother)]
      exact h.row other source hsource
  · have hout : other ∉ sources.entries := fun hin => hother (AList.mem_modify.mpr hin)
    rw [hothers other, h.untracked other hout]
    by_cases heq : other = ip
    · exact .inr (heq ▸ hout)
    · exact .inl heq

theorem windows (calls : List SourceCall) (hordered : (forwardSeconds calls).Pairwise (· ≤ ·)) :
    Windows (sourceCalls.run calls) (sourceCalls.trace calls) ∧
      ∀ c ∈ sourceCalls.trace calls, c.second ∈ forwardSeconds calls := by
  revert hordered
  refine sourceCalls.induction_on
    (P := fun calls sources credits => (forwardSeconds calls).Pairwise (· ≤ ·) →
      Windows sources credits ∧ ∀ c ∈ credits, c.second ∈ forwardSeconds calls)
    (fun _ => ⟨⟨fun ip source hsource => ?_, fun _ _ => rfl⟩, nofun⟩) ?_ calls
  · simp [sourceCalls, Sources.empty] at hsource
  · intro calls sources credits call ih hordered
    rw [forwardSeconds, List.filterMap_append, ← forwardSeconds] at hordered
    obtain ⟨hbefore, -, hnewest⟩ := List.pairwise_append.mp hordered
    obtain ⟨h, hseconds⟩ := ih hbefore
    rw [forwardSeconds, List.filterMap_append, ← forwardSeconds]
    constructor
    · cases call with
      | received ip allowed wallMs =>
          rw [show sourceCalls.emit _ (.received ip allowed wallMs) = [] from rfl, List.append_nil]
          exact h.received ip allowed wallMs
      | dropped ip =>
          rw [show sourceCalls.emit _ (.dropped ip) = [] from rfl, List.append_nil]
          exact h.dropped ip
      | forwarded ip second =>
          exact h.forwarded (fun c hc => hnewest _ (hseconds c hc) second (by simp)) ip
    · intro c hc
      rcases List.mem_append.mp hc with hc | hc
      · exact List.mem_append_left _ (hseconds c hc)
      · refine List.mem_append_right _ ?_
        cases call with
        | received ip allowed wallMs => cases hc
        | dropped ip => cases hc
        | forwarded ip second =>
            simp only [sourceCalls, Sources.credit] at hc
            split at hc
            · rw [List.mem_singleton.mp hc]
              simp
            · cases hc

/-- The windows of a row at a second no smaller than those it recorded. -/
theorem Source.Represents.row {source : Source} {ip : IpAddr} {seconds : List Nat}
    (h : source.Represents ip seconds) {now : Nat} (hnow : ∀ second ∈ seconds, second ≤ now) :
    (source.row now).messagesPerSecond = seconds.countP (fun second : Nat => (second : ℤ) = now - 1) ∧
      (source.row now).messagesPerMinute =
        seconds.countP (fun second : Nat => (now : ℤ) - 60 ≤ second ∧ (second : ℤ) ≤ now - 1) ∧
      (source.row now).messagesLast24h = seconds.countP (fun second : Nat =>
        ((now / 60 : Nat) : ℤ) - 1440 < (second / 60 : Nat) ∧ second / 60 ≤ now / 60) := by
  have hminutes : ∀ minute ∈ seconds.map (· / 60), minute ≤ now / 60 := by
    intro minute hminute
    obtain ⟨second, hsecond, rfl⟩ := List.mem_map.mp hminute
    exact Nat.div_le_div_right (hnow second hsecond)
  simp only [Source.row]
  rw [h.bySecond.total_eq_countP, h.bySecond.total_eq_countP, h.byMinute.total_eq_countP,
    List.countP_map]
  · refine ⟨List.countP_congr fun second _ => ?_, List.countP_congr fun second _ => ?_,
      List.countP_congr fun second _ => ?_⟩ <;>
      simp only [Function.comp_apply, decide_eq_true_eq] <;>
      omega
  all_goals
    intro tick htick hwindow other hother
    simp only [decide_eq_true_eq] at hwindow
    have := hnow
    have := hminutes
    grind

/-- A snapshot has one row for each tracked address, and the row counts the credits of its address in
exactly the windows it names, however long the gaps were and however often the rings wrapped. -/
theorem snapshot_windows_exact (calls : List SourceCall) (now : Nat)
    (hordered : (forwardSeconds calls).Pairwise (· ≤ ·))
    (hnow : ∀ second ∈ forwardSeconds calls, second ≤ now) :
    let sources := sourceCalls.run calls
    ((sources.snapshot now).map SourceStatus.ip).Perm sources.entries.keys ∧
      ∀ row ∈ sources.snapshot now,
        let seconds := creditSeconds row.ip (sourceCalls.trace calls)
        row.messagesPerSecond = seconds.countP (fun second : Nat => (second : ℤ) = now - 1) ∧
          row.messagesPerMinute = seconds.countP (fun second : Nat =>
            (now : ℤ) - 60 ≤ second ∧ (second : ℤ) ≤ now - 1) ∧
          row.messagesLast24h = seconds.countP (fun second : Nat =>
            ((now / 60 : Nat) : ℤ) - 1440 < (second / 60 : Nat) ∧ second / 60 ≤ now / 60) ∧
          row.messagesForwarded = seconds.length := by
  intro sources
  obtain ⟨h, hseconds⟩ := windows calls hordered
  refine ⟨Sources.snapshot_ips (fun ip source hsource => (h.row ip source hsource).address) now, ?_⟩
  intro row hrow seconds
  obtain ⟨e, he, rfl⟩ := List.mem_map.mp hrow
  have hrepresents := h.row e.1 e.2 (AList.mem_entries_iff.mp (List.mem_mergeSort.mp he))
  have hip : (Source.row now e.2).ip = e.1 := hrepresents.address
  have hbound : ∀ second ∈ creditSeconds e.1 (sourceCalls.trace calls), second ≤ now := by
    intro second hsecond
    obtain ⟨c, hc, rfl⟩ := List.mem_map.mp hsecond
    exact hnow _ (hseconds c (List.mem_of_mem_filter hc))
  obtain ⟨hsecond, hminute, hday⟩ := hrepresents.row hbound
  simp only [seconds, hip]
  exact ⟨hsecond, hminute, hday, hrepresents.forwarded⟩

/-- Two messages in second 0 and one in second 59, seen from second 60. -/
theorem snapshot_windows_exact_at_sixty :
    let ip := IpAddr.v4 0x7f000001#32
    let calls := [.received ip true 10, .forwarded ip 0, .forwarded ip 0, .forwarded ip 59]
    (∃ row ∈ (sourceCalls.run calls).snapshot 60, row.ip = ip) ∧
      ∀ row ∈ (sourceCalls.run calls).snapshot 60, row.messagesPerSecond = 1 ∧
        row.messagesPerMinute = 3 ∧ row.messagesLast24h = 3 ∧ row.messagesForwarded = 3 := by
  intro ip calls
  obtain ⟨hkeys, hrows⟩ := snapshot_windows_exact calls 60 (by decide) (by decide)
  refine ⟨List.mem_map.mp (hkeys.mem_iff.mpr List.mem_cons_self), fun row hrow => ?_⟩
  have hip : row.ip = ip := by
    have hmem := hkeys.mem_iff.mp (List.mem_map_of_mem hrow)
    exact List.mem_singleton.mp hmem
  have hseconds : creditSeconds row.ip (sourceCalls.trace calls) = [0, 0, 59] := by
    rw [hip]
    decide
  have hcounts := hrows row hrow
  simp only [hseconds] at hcounts
  exact hcounts

end SyslogDtlsAgent
