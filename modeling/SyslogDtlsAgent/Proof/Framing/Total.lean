import SyslogDtlsAgent.Core.Framing
import SyslogDtlsAgent.Library.Returns

/-!
# The validator always returns

For every scanner of the validator, in the order of the calls: whatever it is given, its slices are in
bounds and its loops end. A loop is given more fuel than its input has bytes left, and every round
consumes a byte.
-/

namespace SyslogDtlsAgent

open Library Scan Byte

theorem length_pos_of_head {rest : Bytes} {b : UInt8} (hhead : rest.head? = some b) : 1 ≤ rest.length := by
  cases rest with
  | nil => cases hhead
  | cons c rest => simp

/-! ### Header -/

/-- The `>` that ends a priority is not the `<` in front of it. -/
theorem priority_end_pos {m : Bytes} {n : Nat} (hhead : (m.head? == some less) = true)
    (hend : m[n]?.any (· == greater) = true) : 1 ≤ n := by
  cases n with
  | zero =>
      rw [← List.head?_eq_getElem?, eq_of_beq hhead] at hend
      exact absurd hend (by decide)
  | succ n => omega

theorem priority_returns (m : Bytes) : Returns (priority m) fun _ => True := by
  unfold priority
  apply Returns.require.bind
  intro _ hhead
  apply Returns.position.bind
  intro end_ ⟨hend, hgreater⟩
  apply (Returns.slice (priority_end_pos hhead hgreater) (Nat.le_of_lt hend)).bind
  intro pri hpri
  apply Returns.require.bind
  intro _ _
  apply Returns.require.bind
  intro _ _
  apply Returns.require.bind
  intro _ _
  have hrest : Returns (do
      require (isUtf8 pri)
      let p ← orReject (parseU16 pri)
      require (decide (p ≤ 191))
      dropTo m (end_ + 1)) fun _ => True := by
    apply Returns.require.bind
    intro _ _
    apply Returns.orReject.bind
    intro p _
    apply Returns.require.bind
    intro _ _
    exact (Returns.dropTo hend).mono fun _ _ => trivial
  apply Returns.ite
  · intro hlong
    apply (Returns.get (Nat.zero_lt_of_lt hlong)).bind
    intro first _
    apply Returns.require.bind
    intro _ _
    exact hrest
  · intro _
    exact hrest

theorem headerFields_returns (count : Nat) (rest : Bytes) :
    Returns (headerFields count rest) fun read => read.1.length = count := by
  induction count generalizing rest with
  | zero => exact Returns.pure rfl
  | succ count ih =>
      rw [headerFields]
      apply Returns.position.bind
      intro n ⟨hn, _⟩
      apply (Returns.takeTo (Nat.le_of_lt hn)).bind
      intro field _
      apply (Returns.dropTo hn).bind
      intro after _
      apply (ih after).bind
      intro read hread
      apply Returns.pure
      rw [List.length_cons, hread]

theorem timestamp_returns (lib : External) (ts : Bytes) : Returns (timestamp lib ts) fun _ => True := by
  unfold timestamp
  apply Returns.require.bind
  intro _ _
  apply Returns.require.bind
  intro _ _
  apply Returns.require.bind
  intro _ _
  apply Returns.require.bind
  intro _ _
  have hlast : Returns (require (strGet ts 17 19 != some [0x36, 0x30])) fun _ => True :=
    Returns.require.mono fun _ _ => trivial
  apply Returns.ite
  · intro _
    apply Returns.require.bind
    intro _ _
    exact hlast
  · intro _
    exact hlast

/-! ### Structured data -/

/-- The scan for a closing quote moves on by one byte or by two and stops inside the input. -/
theorem valueEnd_returns {rest : Bytes} {fuel i : Nat} (hi : i ≤ rest.length) (hfuel : rest.length < fuel + i) :
    Returns (valueEnd rest fuel i) fun n => n < rest.length := by
  induction fuel generalizing i with
  | zero => omega
  | succ fuel ih =>
      rw [valueEnd]
      cases hbyte : rest[i]? with
      | none => exact Returns.refused
      | some b =>
          obtain ⟨hlt, -⟩ := List.getElem?_eq_some_iff.mp hbyte
          simp only
          split
          · exact Returns.pure hlt
          split
          · exact Returns.refused
          split
          · rename_i hescape
            -- the escaped byte was looked at, so skipping it stays inside
            have hnext : i + 1 < rest.length := by
              by_contra hout
              rw [List.getElem?_eq_none (by omega)] at hescape
              exact absurd hescape.2 (by simp)
            exact ih (by omega) (by omega)
          · exact ih (by omega) (by omega)

theorem sdParams_returns {fuel : Nat} {rest : Bytes} (hfuel : rest.length < fuel) :
    Returns (sdParams fuel rest) fun after => after.length ≤ rest.length := by
  induction fuel generalizing rest with
  | zero => omega
  | succ fuel ih =>
      rw [sdParams]
      apply Returns.ite
      · intro hhead
        have hpos : 1 ≤ rest.length := length_pos_of_head hhead
        apply (Returns.dropTo hpos).bind
        intro param hparam
        apply Returns.position.bind
        intro n ⟨hn, _⟩
        apply (Returns.takeTo (Nat.le_of_lt hn)).bind
        intro name _
        apply Returns.require.bind
        intro _ _
        apply Returns.require.bind
        intro _ hquote
        have hvalue : n + 2 ≤ param.length := by
          by_contra hout
          rw [List.getElem?_eq_none (by omega)] at hquote
          exact absurd hquote (by decide)
        apply (Returns.dropTo hvalue).bind
        intro quoted hquoted
        apply (valueEnd_returns (Nat.zero_le _) (Nat.lt_succ_self _)).bind
        intro i hi
        apply (Returns.takeTo (Nat.le_of_lt hi)).bind
        intro value _
        apply Returns.require.bind
        intro _ _
        apply (Returns.dropTo hi).bind
        intro after hafter
        apply (ih (by omega)).mono
        intro last hlast
        omega
      · intro _
        exact Returns.pure (Nat.le_refl _)

theorem sdElements_returns {fuel : Nat} {ids : List Bytes} {rest : Bytes} (hfuel : rest.length < fuel) :
    Returns (sdElements fuel ids rest) fun _ => True := by
  induction fuel generalizing ids rest with
  | zero => omega
  | succ fuel ih =>
      rw [sdElements]
      apply Returns.ite
      · intro hhead
        have hpos : 1 ≤ rest.length := length_pos_of_head hhead
        apply (Returns.dropTo hpos).bind
        intro element helement
        have hn : (position (fun b => b == space || b == close) element).getD element.length ≤
            element.length := by
          cases hposition : position (fun b => b == space || b == close) element with
          | none => exact Nat.le_refl _
          | some n =>
              have hfound := @Returns.position _ (fun b => b == space || b == close) element
              rw [hposition] at hfound
              exact Nat.le_of_lt hfound.1
        apply (Returns.takeTo hn).bind
        intro id _
        apply Returns.require.bind
        intro _ _
        apply Returns.require.bind
        intro _ _
        apply (Returns.dropTo hn).bind
        intro params hparams
        apply (sdParams_returns (Nat.lt_succ_self _)).bind
        intro after hafter
        apply Returns.require.bind
        intro _ hclose
        have hpos' : 1 ≤ after.length := length_pos_of_head (eq_of_beq hclose)
        apply (Returns.dropTo hpos').bind
        intro last hlast
        exact ih (by omega)
      · intro _
        exact Returns.pure trivial

theorem validTail_returns (s : Bytes) : Returns (validTail s) fun _ => True := by
  unfold validTail
  apply Returns.ite
  · intro _
    exact Returns.pure trivial
  · intro hne
    have hpos : 0 < s.length := List.length_pos_iff.mpr hne
    apply (Returns.get hpos).bind
    intro first _
    apply Returns.ite
    · intro _
      exact Returns.pure trivial
    · intro _
      apply (Returns.dropTo hpos).bind
      intro msg _
      exact Returns.pure trivial

/-! ### The validator -/

/-- What follows the header. -/
theorem structuredData_returns (rest : Bytes) :
    Returns (if rest.head? = some dash then do
        let tail ← dropTo rest 1
        validTail tail
      else do
        let read ← sdElements (rest.length + 1) [] rest
        if read.1 = [] then return false
        validTail read.2) fun _ => True := by
  apply Returns.ite
  · intro hhead
    apply (Returns.dropTo (length_pos_of_head hhead)).bind
    intro tail _
    exact validTail_returns tail
  · intro _
    apply (sdElements_returns (Nat.lt_succ_self _)).bind
    intro read _
    apply Returns.ite
    · intro _
      exact Returns.pure trivial
    · intro _
      exact validTail_returns read.2

theorem scanMessage_returns (lib : External) (m : Bytes) : Returns (scanMessage lib m) fun _ => True := by
  unfold scanMessage
  apply (priority_returns m).bind
  intro header _
  apply (headerFields_returns 6 header).bind
  intro read hcount
  have hpos : 1 < read.1.length := by omega
  apply (Returns.get (Nat.zero_lt_of_lt hpos)).bind
  intro version _
  apply Returns.require.bind
  intro _ _
  apply (Returns.get hpos).bind
  intro ts _
  have hnames : 2 ≤ read.1.length := hpos
  apply Returns.ite
  · intro _
    apply (timestamp_returns lib ts).bind
    intro _ _
    apply (Returns.dropTo hnames).bind
    intro names _
    apply Returns.require.bind
    intro _ _
    exact structuredData_returns read.2
  · intro _
    apply (Returns.dropTo hnames).bind
    intro names _
    apply Returns.require.bind
    intro _ _
    exact structuredData_returns read.2

/-- Whatever the datagram, no slice or index is out of bounds and every loop ends: the validator accepts
it or refuses it. -/
theorem valid_message_always_returns (lib : External) (m : Bytes) :
    scanMessage lib m ≠ .error .panic ∧ scanMessage lib m ≠ .error .diverge ∧
      ((∃ accepted, scanMessage lib m = .ok accepted ∧ validMessage lib m = accepted) ∨
        scanMessage lib m = .error .reject ∧ validMessage lib m = false) := by
  rcases (scanMessage_returns lib m).ends with ⟨accepted, haccepted, -⟩ | hrefused
  · refine ⟨by simp [haccepted], by simp [haccepted], .inl ⟨accepted, haccepted, ?_⟩⟩
    rw [validMessage, haccepted]
  · refine ⟨by simp [hrefused], by simp [hrefused], .inr ⟨hrefused, ?_⟩⟩
    rw [validMessage, hrefused]

/-- A value that ends in a backslash, and one whose quote is the last byte. -/
example : scanMessage ⟨fun _ => true, fun _ => none, fun _ => none, fun _ => []⟩
      (asBytes "<0>1 - h a p m [x a=\"v\\") = .error .reject ∧
    scanMessage ⟨fun _ => true, fun _ => none, fun _ => none, fun _ => []⟩
      (asBytes "<0>1 - h a p m [x a=\"v\"") = .error .reject := by
  decide +kernel

end SyslogDtlsAgent
