import SyslogDtlsAgent.Dtls.Session
import SyslogDtlsAgent.Proof.Relay.Fifo

/-!
# The transport's usage contract

The operations on one session, in order, are a list; `Follows` says which operation may come after
which. A session is held from the moment it is opened until it is closed, and what the next operation
on it may be depends only on the last one: after a blocked write the sender still has the frame.
-/

namespace SyslogDtlsAgent

open Library

variable {lib : External} {cfg : Config} {boot : Boot}

/-- The session an event is an operation of. -/
def Event.session : Event → Option Nat
  | .opened session => some session
  | .peerInfo session => some session
  | .polled session _ => some session
  | .maxPlaintext session _ => some session
  | .wrote session _ _ _ _ => some session
  | .closed session => some session
  | _ => none

/-- The operations on session `k`, in order. -/
def operations (k : Nat) (events : List Event) : List Event :=
  events.filter fun e => e.session = some k

/-- Which operation on a session may come after which: nothing after `close`, and after a write that
would block only the same bytes or `close`. -/
def Follows : Event → Event → Prop
  | .closed _, _ => False
  | .wrote _ bytes (.ok .wouldBlock) _ _, .wrote _ bytes' _ _ _ => bytes' = bytes
  | .wrote _ _ (.ok .wouldBlock) _ _, .closed _ => True
  | .wrote _ _ (.ok .wouldBlock) _ _, _ => False
  | _, _ => True

/-- The session is connected and not closed. -/
def Sender.Holds (t : Sender) (k : Nat) : Prop := t.session = some k ∨ t.pc.place = .opening k

/-- The last operation on a held session leaves it usable, and a blocked frame is still in hand. -/
structure Ready (t : Sender) (last : Event) : Prop where
  usable : ∀ k, last ≠ .closed k
  retry : ∀ k bytes called returned, last = .wrote k bytes (.ok .wouldBlock) called returned →
    t.pendingFrame = some bytes ∧ t.pc ≠ .sent

structure Contract (w : World) (events : List Event) : Prop where
  legal : ∀ k, (operations k events).IsChain Follows
  held : ∀ k, w.sender.Holds k → ∀ e ∈ (operations k events).getLast?, Ready w.sender e
  gone : ∀ k, k < w.sender.sessions → ¬ w.sender.Holds k →
    (operations k events).getLast? = some (.closed k)
  fresh : ∀ k, w.sender.sessions ≤ k → ¬ w.sender.Holds k ∧ operations k events = []
  budget : ∀ k bytes, w.sender.session = some k → w.sender.pendingFrame = some bytes →
    ∃ n, .maxPlaintext k n ∈ events ∧ bytes.length ≤ n

theorem operations_append (k : Nat) (left right : List Event) :
    operations k (left ++ right) = operations k left ++ operations k right :=
  List.filter_append left right

theorem operations_aside {k : Nat} {events : List Event} (h : ∀ e ∈ events, e.session = none) :
    operations k events = [] := by
  refine List.filter_eq_nil_iff.mpr fun e he => ?_
  rw [h e he]
  simp

theorem operations_cons {k j : Nat} {e : Event} {rest : List Event} (he : e.session = some k)
    (hrest : ∀ e ∈ rest, e.session = none) :
    operations j (e :: rest) = if j = k then [e] else [] := by
  have hnone : operations j rest = [] := operations_aside hrest
  unfold operations at hnone ⊢
  rw [List.filter_cons, he, hnone]
  by_cases h : j = k
  · simp [h]
  · simp [h, Ne.symm h]

/-- Only after a close or a blocked write is there something to check. -/
theorem Ready.of_ne {t : Sender} {last : Event} (hclosed : ∀ k, last ≠ .closed k)
    (hwrote : ∀ k bytes called returned, last ≠ .wrote k bytes (.ok .wouldBlock) called returned) :
    Ready t last where
  usable := hclosed
  retry k bytes called returned h := absurd h (hwrote k bytes called returned)

/-- What may come next on a held session. -/
theorem Ready.follows {t : Sender} {last e : Event} (h : Ready t last)
    (hnext : t.pendingFrame = none ∨ (∃ k, e = .closed k) ∨
      ∃ k bytes result called returned, e = .wrote k bytes result called returned ∧
        t.pendingFrame = some bytes) : Follows last e := by
  unfold Follows
  split
  · exact absurd rfl (h.usable _)
  · obtain ⟨hframe, -⟩ := h.retry _ _ _ _ rfl
    rcases hnext with hnone | ⟨k, heq⟩ | ⟨k, bytes, result, called, returned, heq, hsome⟩
    · rw [hframe] at hnone
      cases hnone
    · cases heq
    · cases heq
      rw [hframe] at hsome
      exact (Option.some.inj hsome).symm
  · trivial
  · rename_i hwrote hclosed
    obtain ⟨hframe, -⟩ := h.retry _ _ _ _ rfl
    rcases hnext with hnone | ⟨k, rfl⟩ | ⟨k, bytes, result, called, returned, rfl, -⟩
    · rw [hframe] at hnone
      cases hnone
    · exact hclosed _ rfl
    · exact hwrote _ _ _ _ _ rfl
  · trivial

theorem Contract.start : Contract (World.start cfg boot) [] := by
  refine ⟨fun k => ?_, fun k _ e he => ?_, fun k hk => ?_, fun k _ => ⟨?_, rfl⟩, fun k bytes h => ?_⟩
  · exact List.isChain_nil
  · cases he
  · cases hk
  · simp [World.start, Sender.start, Sender.Holds, Pc.place]
  · cases h

/-- A move without an operation on a session. -/
theorem Contract.aside {w w' : World} {before events : List Event} (h : Contract w before)
    (hevents : ∀ e ∈ events, e.session = none) (hsessions : w'.sender.sessions = w.sender.sessions)
    (hholds : ∀ k, w'.sender.Holds k ↔ w.sender.Holds k)
    (hready : ∀ k, w.sender.Holds k → ∀ e, Ready w.sender e → Ready w'.sender e)
    (hframe : ∀ k bytes, w'.sender.session = some k → w'.sender.pendingFrame = some bytes →
      w.sender.session = some k ∧ w.sender.pendingFrame = some bytes) :
    Contract w' (before ++ events) := by
  have hsame : ∀ k, operations k (before ++ events) = operations k before := by
    intro k
    rw [operations_append, operations_aside hevents, List.append_nil]
  refine ⟨fun k => ?_, fun k hk e he => ?_, fun k hk hgone => ?_, fun k hk => ?_, fun k bytes hk hb => ?_⟩
  · rw [hsame]
    exact h.legal k
  · rw [hsame] at he
    exact hready k ((hholds k).mp hk) e (h.held k ((hholds k).mp hk) e he)
  · rw [hsame]
    exact h.gone k (hsessions ▸ hk) fun hheld => hgone ((hholds k).mpr hheld)
  · obtain ⟨hfree, hnone⟩ := h.fresh k (hsessions ▸ hk)
    exact ⟨fun hheld => hfree ((hholds k).mp hheld), (hsame k).trans hnone⟩
  · obtain ⟨hsession, hpending⟩ := hframe k bytes hk hb
    obtain ⟨n, hn, hle⟩ := h.budget k bytes hsession hpending
    exact ⟨n, List.mem_append_left _ hn, hle⟩

/-- At most one session is held. -/
theorem Held.holds_unique {w : World} (h : Held w) {j k : Nat} (hj : w.sender.Holds j)
    (hk : w.sender.Holds k) : j = k := by
  have hfits := h.fits
  have hopening : ∀ {i}, w.sender.pc.place = .opening i → w.sender.session = none := by
    intro i hi
    rw [hi] at hfits
    exact hfits.1
  rcases hj with hj | hj <;> rcases hk with hk | hk
  · exact Option.some.inj (hj.symm.trans hk)
  · rw [hopening hk] at hj
    cases hj
  · rw [hopening hj] at hk
    cases hk
  · exact Place.opening.inj (hj.symm.trans hk)

/-- An operation on the held session `k`. -/
theorem Contract.operate {w w' : World} {before rest : List Event} {k : Nat} {e : Event}
    (h : Contract w before) (hw : Held w) (he : e.session = some k) (hrest : ∀ e ∈ rest, e.session = none)
    (hheld : w.sender.Holds k) (hsessions : w'.sender.sessions = w.sender.sessions)
    (hothers : ∀ j, j ≠ k → (w'.sender.Holds j ↔ w.sender.Holds j))
    (hnext : w.sender.pendingFrame = none ∨ (∃ k, e = .closed k) ∨
      ∃ k bytes result called returned, e = .wrote k bytes result called returned ∧
        w.sender.pendingFrame = some bytes)
    (hafter : (w'.sender.Holds k ∧ Ready w'.sender e) ∨ (¬ w'.sender.Holds k ∧ e = .closed k))
    (hframe : ∀ j bytes, w'.sender.session = some j → w'.sender.pendingFrame = some bytes →
      (w.sender.session = some j ∧ w.sender.pendingFrame = some bytes) ∨
        ∃ n, e = .maxPlaintext j n ∧ bytes.length ≤ n) :
    Contract w' (before ++ e :: rest) := by
  have hops : ∀ j, operations j (before ++ e :: rest) =
      operations j before ++ if j = k then [e] else [] := by
    intro j
    rw [operations_append, operations_cons he hrest]
  have hlt : k < w.sender.sessions := by
    by_contra hge
    exact (h.fresh k (by omega)).1 hheld
  refine ⟨fun j => ?_, fun j hj last hlast => ?_, fun j hj hgone => ?_, fun j hj => ?_,
    fun j bytes hj hb => ?_⟩
  · rw [hops]
    split
    · rename_i heq
      subst heq
      refine (h.legal j).append (List.isChain_singleton e) fun last hlast next hnext' => ?_
      obtain rfl : e = next := by simpa using hnext'
      exact (h.held j hheld last hlast).follows hnext
    · rw [List.append_nil]
      exact h.legal j
  · rw [hops] at hlast
    split at hlast
    · rename_i heq
      subst heq
      rw [List.getLast?_concat] at hlast
      obtain rfl := Option.some.inj hlast
      rcases hafter with ⟨-, hready⟩ | ⟨hno, -⟩
      · exact hready
      · exact absurd hj hno
    · rename_i hne
      exact absurd (hw.holds_unique ((hothers j hne).mp hj) hheld) hne
  · rw [hops]
    split
    · rename_i heq
      subst heq
      rcases hafter with ⟨hyes, -⟩ | ⟨-, rfl⟩
      · exact absurd hyes hgone
      · exact List.getLast?_concat
    · rename_i hne
      rw [List.append_nil]
      exact h.gone j (hsessions ▸ hj) fun hheld => hgone ((hothers j hne).mpr hheld)
  · have hne : j ≠ k := by
      rintro rfl
      omega
    obtain ⟨hfree, hnone⟩ := h.fresh j (hsessions ▸ hj)
    rw [hops, if_neg hne, List.append_nil]
    exact ⟨fun hheld => hfree ((hothers j hne).mp hheld), hnone⟩
  · rcases hframe j bytes hj hb with ⟨hsession, hpending⟩ | ⟨n, rfl, hle⟩
    · obtain ⟨n, hn, hle⟩ := h.budget j bytes hsession hpending
      exact ⟨n, List.mem_append_left _ hn, hle⟩
    · exact ⟨n, by simp, hle⟩

theorem Sender.holds_iff {t : Sender} (hplace : ∀ k, t.pc.place ≠ .opening k) (k : Nat) :
    t.Holds k ↔ t.session = some k :=
  or_iff_left (hplace k)

/-- While the sender is offline no session is held. -/
theorem Held.offline {w : World} (h : Held w) (hplace : w.sender.pc.place = .offline) (k : Nat) :
    ¬ w.sender.Holds k := by
  have hfits := h.fits
  rw [hplace] at hfits
  rintro (hk | hk)
  · rw [hfits.1] at hk
    cases hk
  · rw [hplace] at hk
    cases hk

/-- A session is opened under a number no event has used. -/
theorem Contract.opened {w : World} {before : List Event} (h : Contract w before) (hheld : Held w)
    (remote : SocketAddr) (hpc : w.sender.pc = .connecting remote) :
    Contract
      { w with sender :=
          { w.sender with pc := .established w.sender.sessions, sessions := w.sender.sessions + 1 } }
      (before ++ [.connect remote, .opened w.sender.sessions]) := by
  have hfits := hheld.fits
  have hnone : ∀ k, ¬ w.sender.Holds k := hheld.offline (by rw [hpc]; rfl)
  have hops : ∀ j, operations j (before ++ [.connect remote, .opened w.sender.sessions]) =
      operations j before ++ if j = w.sender.sessions then [.opened w.sender.sessions] else [] := by
    intro j
    have htwo : operations j [.connect remote, .opened w.sender.sessions] =
        operations j [.opened w.sender.sessions] := List.filter_cons_of_neg (by simp [Event.session])
    rw [operations_append, htwo, operations_cons rfl (by simp)]
  have hnew : operations w.sender.sessions before = [] := (h.fresh _ (Nat.le_refl _)).2
  have hholds : ∀ j, Sender.Holds
      { w.sender with pc := .established w.sender.sessions, sessions := w.sender.sessions + 1 } j ↔
        j = w.sender.sessions := by
    intro j
    rw [hpc] at hfits
    simp only [Sender.Holds, hfits.1, reduceCtorEq, false_or, Pc.place, Place.opening.injEq]
    exact eq_comm
  refine ⟨fun j => ?_, fun j hj e he => ?_, fun j hlt hj => ?_, fun j hge => ?_, fun j bytes hk => ?_⟩
  · rw [hops]
    split
    · rename_i heq
      rw [heq, hnew]
      exact List.isChain_singleton _
    · rw [List.append_nil]
      exact h.legal j
  · obtain rfl := (hholds j).mp hj
    rw [hops, if_pos rfl, List.getLast?_concat] at he
    obtain rfl := Option.some.inj he
    exact .of_ne (by simp) (by simp)
  · have hne : j ≠ w.sender.sessions := fun heq => hj ((hholds j).mpr heq)
    rw [hops, if_neg hne, List.append_nil]
    exact h.gone j (by simp only at hlt; omega) (hnone j)
  · simp only at hge
    have hne : j ≠ w.sender.sessions := by omega
    rw [hops, if_neg hne, List.append_nil]
    exact ⟨fun hj => hne ((hholds j).mp hj), (h.fresh j (by omega)).2⟩
  · rw [hpc] at hfits
    exact absurd (Or.inl hk) (hnone j)

/-- The session is closed, if there is one. -/
theorem Contract.closed {w : World} {before : List Event} {pc : Pc} {pendingFrame : Option Bytes}
    (h : Contract w before) (hheld : Held w)
    (hnext : (pc = .drain ∧ w.sender.pc = .closing ∧ pendingFrame = w.sender.pendingFrame) ∨
      ∃ error, w.sender.pc = .failed error ∧ pc = .failedStatus error ∧ pendingFrame = none) :
    Contract { w with sender := { w.sender with pc, session := none, pendingFrame } }
      (before ++ (w.sender.session.map Event.closed).toList) := by
  have hbefore : ∀ k, w.sender.Holds k ↔ w.sender.session = some k := by
    rcases hnext with ⟨-, hpc, -⟩ | ⟨error, hpc, -, -⟩ <;>
      exact Sender.holds_iff (by simp [hpc, Pc.place])
  have hafter : ∀ k, ¬ Sender.Holds { w.sender with pc, session := none, pendingFrame } k := by
    intro k
    rcases hnext with ⟨rfl, -, -⟩ | ⟨error, -, rfl, -⟩ <;> simp [Sender.Holds, Pc.place]
  cases hsession : w.sender.session with
  | none =>
      have hnone : ∀ k, ¬ w.sender.Holds k := by
        intro k
        simp [hbefore, hsession]
      exact h.aside (by simp) rfl (fun k => iff_of_false (hafter k) (hnone k))
        (fun k hk => absurd hk (hnone k)) (fun _ _ hk _ => by cases hk)
  | some session =>
      refine h.operate hheld (k := session) rfl (by simp) ((hbefore _).mpr hsession) rfl
        (fun j hne => ?_) (.inr (.inl ⟨session, rfl⟩)) (.inr ⟨hafter session, rfl⟩)
        (fun _ _ hk _ => by cases hk)
      rw [hbefore, hsession, Option.some.injEq]
      exact iff_of_false (hafter j) (Ne.symm hne)

theorem Contract.move {w w' : World} {before events : List Event} (h : Contract w before)
    (hheld : Held w) (hmove : Move lib cfg w w' events) : Contract w' (before ++ events) := by
  have hfits := hheld.fits
  cases hmove with
  | quiet shared session pendingFrame sessions internal place =>
      refine h.aside (fun e he => ?_) sessions (fun k => ?_) (fun _ _ e hready => ⟨hready.usable, ?_⟩) ?_
      · have := internal e he
        cases e <;> first | rfl | cases this
      · rw [Sender.Holds, session, place.fixed_iff (.opening _) rfl, Sender.Holds]
      · intro k bytes called returned he
        obtain ⟨hframe, hpc⟩ := hready.retry k bytes called returned he
        rw [pendingFrame]
        refine ⟨hframe, fun hsent => hpc ?_⟩
        rwa [← pc_place_sent, place.fixed_iff .sent rfl, pc_place_sent] at hsent
      · intro k bytes hk hb
        exact ⟨session ▸ hk, pendingFrame ▸ hb⟩
  | refused ip payload wallMs hrefusal hip =>
      exact h.aside (by simp [Event.session]) rfl (fun _ => .rfl) (fun _ _ _ hready => hready)
        (fun _ _ hk hb => ⟨hk, hb⟩)
  | accepted ip payload wallMs hrefusal hip =>
      exact h.aside (by simp [Event.session]) rfl (fun _ => .rfl) (fun _ _ _ hready => hready)
        (fun _ _ hk hb => ⟨hk, hb⟩)
  | connectFailed remote hpc =>
      refine h.aside (by simp [Event.session]) rfl (fun k => ?_) (fun _ _ e hready => ?_)
        (fun _ _ hk hb => ⟨hk, hb⟩)
      · simp [Sender.Holds, hpc, Pc.place]
      · exact ⟨hready.usable, fun k bytes called returned he =>
          ⟨(hready.retry k bytes called returned he).1, by simp⟩⟩
  | opened remote hpc =>
      exact h.opened hheld remote hpc
  | established session hpc hshared =>
      rw [hpc] at hfits
      have hplace : w.sender.pc.place = .opening session := by rw [hpc]; rfl
      refine h.operate hheld (k := session) rfl (by simp) (.inr hplace) rfl (fun j hne => ?_)
        (.inl hfits.2) (.inl ⟨.inl rfl, .of_ne (by simp) (by simp)⟩) (fun _ _ _ hb => by cases hb)
      simp [Sender.Holds, hpc, hfits.1, Pc.place, Ne.symm hne]
  | polled session result hpc hsession hframe hnext =>
      have hholds : ∀ k, w.sender.Holds k ↔ w.sender.session = some k :=
        Sender.holds_iff (by simp [hpc, Pc.place])
      refine h.operate hheld (k := session) rfl (by simp) ((hholds _).mpr hsession) rfl (fun j hne => ?_)
        (.inl hframe) (.inl ⟨.inl hsession, .of_ne (by simp) (by simp)⟩) (fun _ _ hk hb => .inl ⟨hk, hb⟩)
      rw [hholds]
      rcases hnext with rfl | ⟨error, rfl⟩ <;> exact Sender.holds_iff (by simp [Pc.place]) j
  | oversized i session m rest hpc hsession hqueue hlarge =>
      have hholds : ∀ k, w.sender.Holds k ↔ w.sender.session = some k :=
        Sender.holds_iff (by simp [hpc, Pc.place])
      rw [hpc] at hfits
      refine h.operate hheld (k := session) rfl (by simp [Event.session]) ((hholds _).mpr hsession) rfl
        (fun j hne => ?_) (.inl hfits.2) (.inl ⟨.inl hsession, .of_ne (by simp) (by simp)⟩)
        (fun _ _ hk hb => .inl ⟨hk, hb⟩)
      rw [hholds]
      exact Sender.holds_iff (by simp [Pc.place]) j
  | taken i session m rest hpc hsession hqueue hfits' =>
      have hholds : ∀ k, w.sender.Holds k ↔ w.sender.session = some k :=
        Sender.holds_iff (by simp [hpc, Pc.place])
      rw [hpc] at hfits
      refine h.operate hheld (k := session) rfl (by simp) ((hholds _).mpr hsession) rfl (fun j hne => ?_)
        (.inl hfits.2) (.inl ⟨.inl hsession, .of_ne (by simp) (by simp)⟩) (fun j bytes hj hb => .inr ?_)
      · rw [hholds]
        exact Sender.holds_iff (by simp [Pc.place]) j
      · cases hb
        rw [hsession] at hj
        cases hj
        exact ⟨i.maxPlaintext, rfl, hfits'⟩
  | wrote i session bytes hpc hsession hframe hsent hnext =>
      have hholds : ∀ k, w.sender.Holds k ↔ w.sender.session = some k :=
        Sender.holds_iff (by simp [hpc, Pc.place])
      refine h.operate hheld (k := session) rfl (by simp) ((hholds _).mpr hsession) rfl (fun j hne => ?_)
        (.inr (.inr ⟨session, bytes, i.write, i.now, i.returned, rfl, hframe⟩))
        (.inl ⟨.inl hsession, ⟨by simp, fun k bytes' called returned he => ?_⟩⟩)
        (fun _ _ hk hb => .inl ⟨hk, hb⟩)
      · rw [hholds]
        rcases hnext with rfl | rfl | ⟨error, rfl⟩ <;> exact Sender.holds_iff (by simp [Pc.place]) j
      · simp only [Event.wrote.injEq] at he
        obtain ⟨-, rfl, hwrite, -⟩ := he
        refine ⟨hframe, fun hpc => ?_⟩
        rw [hsent.mp hpc] at hwrite
        cases hwrite
  | forwarded i hpc =>
      refine h.aside (fun e he => ?_) rfl (fun k => ?_) (fun _ _ e hready => ⟨hready.usable, ?_⟩) ?_
      · obtain ⟨m, -, rfl⟩ := Option.map_eq_some_iff.mp (Option.mem_toList.mp he)
        rfl
      · simp [Sender.Holds, hpc, Pc.place]
      · intro k bytes called returned he
        exact absurd hpc (hready.retry k bytes called returned he).2
      · intro k bytes hk hb
        cases hb
  | closed hnext =>
      exact h.closed hheld hnext
  | drained hpc =>
      refine h.aside (fun e he => ?_) rfl (fun k => ?_) (fun _ _ e hready => ?_) (fun _ _ hk hb => ⟨hk, hb⟩)
      · obtain ⟨m, -, rfl⟩ := List.mem_map.mp he
        rfl
      · simp [Sender.Holds, hpc, Pc.place]
      · exact ⟨hready.usable, fun k bytes called returned he =>
          ⟨(hready.retry k bytes called returned he).1, by simp⟩⟩

theorem contract (actions : List Action) :
    Contract ((relay lib cfg boot).run actions) ((relay lib cfg boot).trace actions) := by
  have hboth := (relay lib cfg boot).induction (P := fun w events => Held w ∧ Contract w events)
    ⟨Held.start, Contract.start⟩
    (fun w events action h => ⟨h.1.move (move_next w action), h.2.move h.1 (move_next w action)⟩) actions
  exact hboth.2

theorem frame_ne_nil (payload : Bytes) : frame payload ≠ [] := by
  simp [frame]

/-- Every buffer given to `send`. -/
theorem Move.wrote_inv {w w' : World} {events : List Event} (hmove : Move lib cfg w w' events) {k : Nat}
    {bytes : Bytes} {result : Except String WriteOutcome} {called returned : Instant}
    (hmem : .wrote k bytes result called returned ∈ events) :
    w.sender.pc = .writing ∧ w.sender.session = some k ∧ w.sender.pendingFrame = some bytes := by
  cases hmove with
  | quiet _ _ _ _ internal => cases internal _ hmem
  | wrote i session frame hpc hsession hframe =>
      cases List.mem_singleton.mp hmem
      exact ⟨hpc, hsession, hframe⟩
  | closed | forwarded | drained => simp at hmem
  | _ => simp at hmem

theorem Move.connect_inv {w w' : World} {events : List Event} (hmove : Move lib cfg w w' events)
    {remote : SocketAddr} (hmem : .connect remote ∈ events) : w.sender.pc.place = .offline := by
  cases hmove with
  | quiet _ _ _ _ internal => cases internal _ hmem
  | connectFailed remote hpc => rw [hpc]; rfl
  | opened remote hpc => rw [hpc]; rfl
  | closed | forwarded | drained => simp at hmem
  | _ => simp at hmem

/-- What the sender does with its sessions, in every run: what it writes, what follows a write that would
block, what follows `close`, and when it connects. -/
theorem sender_honours_transport_contract (lib : External) (cfg : Config) (boot : Boot)
    (actions : List Action) :
    let relay := relay lib cfg boot
    let w := relay.run actions
    let events := relay.trace actions
    (∀ action k bytes result called returned,
      .wrote k bytes result called returned ∈ relay.emit w action →
        (∃ m rest, w.shared.queue = m :: rest ∧ bytes = frame m.payload) ∧ bytes ≠ [] ∧
          ∀ budget, (∀ n, .maxPlaintext k n ∈ events → n = budget) →
            bytes.length ≤ budget ∧
              ∀ session : OpenSslSession, session.maxPlaintext = budget →
                (∀ ssl, session.send ssl bytes ≠ .error OpenSslSession.budgetError) ∧
                  cInt bytes.length = bytes.length) ∧
      (∀ k before bytes called returned next after,
        operations k events =
            before ++ .wrote k bytes (.ok .wouldBlock) called returned :: next :: after →
          (∃ result called returned, next = .wrote k bytes result called returned) ∨
            next = .closed k) ∧
      (∀ k before after, operations k events = before ++ .closed k :: after → after = []) ∧
      ∀ action remote, .connect remote ∈ relay.emit w action →
        w.sender.session = none ∧ ∀ k, .opened k ∈ events → .closed k ∈ events := by
  intro relay w events
  have hcontract : Contract w events := contract actions
  have hheld : Held w := held actions
  refine ⟨fun action k bytes result called returned hmem => ?_, ?_, ?_, fun action remote hmem => ?_⟩
  · obtain ⟨hpc, hsession, hframe⟩ := (move_next w action).wrote_inv hmem
    obtain ⟨m, rest, hqueue, rfl⟩ := hheld.head bytes hframe (by simp [hpc, Pc.place])
    refine ⟨⟨m, rest, hqueue, rfl⟩, frame_ne_nil _, fun budget hbudget => ?_⟩
    obtain ⟨n, hn, hle⟩ := hcontract.budget k _ hsession hframe
    obtain rfl := hbudget n hn
    refine ⟨hle, fun session hmtu => ?_⟩
    have hfits : (frame m.payload).length ≤ session.mtu := hle.trans hmtu.ge
    exact ⟨OpenSslSession.send_within_budget hfits (frame_ne_nil _),
      cInt_of_small (hfits.trans session.bounded)⟩
  · intro k before bytes called returned next after hops
    have hchain := hcontract.legal k
    rw [hops] at hchain
    have hfollows : Follows (.wrote k bytes (.ok .wouldBlock) called returned) next :=
      (List.isChain_cons_cons.mp hchain.right_of_append).1
    have hsession : next.session = some k := by
      have hmem : next ∈ operations k events := by simp [hops]
      simpa using (List.mem_filter.mp hmem).2
    cases next with
    | wrote j bytes' result called' returned' =>
        cases hsession
        obtain rfl : bytes' = bytes := hfollows
        exact .inl ⟨result, called', returned', rfl⟩
    | closed j =>
        cases hsession
        exact .inr rfl
    | _ => exact hfollows.elim
  · intro k before after hops
    have hchain := hcontract.legal k
    rw [hops] at hchain
    cases after with
    | nil => rfl
    | cons next after => exact (List.isChain_cons_cons.mp hchain.right_of_append).1.elim
  · have hplace := (move_next w action).connect_inv hmem
    have hnone := hheld.offline hplace
    refine ⟨Option.eq_none_iff_forall_ne_some.mpr fun k hk => hnone k (.inl hk), fun k hopened => ?_⟩
    have hmem : Event.opened k ∈ operations k events := List.mem_filter.mpr ⟨hopened, by simp [Event.session]⟩
    have hlt : k < w.sender.sessions := by
      by_contra hge
      rw [(hcontract.fresh k (by omega)).2] at hmem
      cases hmem
    have hlast := List.mem_of_getLast? (hcontract.gone k hlt (hnone k))
    exact (List.mem_filter.mp hlast).1

end SyslogDtlsAgent
