import SyslogDtlsAgent.Proof.Framing.Grammar

/-!
# Structured data

The three nested loops of the validator against the grammar. Each loop has one lemma: given fuel for
its input it succeeds exactly when the input splits into what the grammar describes and a rest at
which the loop stops. Inductions are on the fuel, with the split of the input general.
-/

namespace SyslogDtlsAgent

open Library Scan Byte

theorem isPrintable_space : isPrintable space = false := by decide

theorem sdName_iff {s : Bytes} : sdName s = true ↔ SdName s := by
  simp only [sdName, SdName, Name, Bool.and_eq_true, bne_iff_ne, decide_eq_true_eq, List.all_eq_true,
    Bool.not_eq_true', Bool.or_eq_false_iff, beq_eq_false_iff_ne]
  constructor
  · rintro ⟨⟨hne, hlength⟩, hbytes⟩
    exact ⟨⟨hne, hlength, fun b hb => (hbytes b hb).1⟩,
      fun b hb => ⟨(hbytes b hb).2.1.1, (hbytes b hb).2.1.2, (hbytes b hb).2.2⟩⟩
  · rintro ⟨⟨hne, hlength, hprintable⟩, hbytes⟩
    exact ⟨⟨hne, hlength⟩, fun b hb =>
      ⟨hprintable b hb, ⟨(hbytes b hb).1, (hbytes b hb).2.1⟩, (hbytes b hb).2.2⟩⟩

/-- The bytes at which the validator ends a name do not occur in one. -/
theorem SdName.ne {s : Bytes} (h : SdName s) {b : UInt8} (hb : b ∈ s) :
    b ≠ equals ∧ b ≠ close ∧ b ≠ space := by
  refine ⟨(h.2 b hb).1, (h.2 b hb).2.1, ?_⟩
  rintro rfl
  have := h.1.2.2 space hb
  rw [isPrintable_space] at this
  cases this

/-! ### Parameter values -/

theorem not_tokens_quote {rest : Bytes} : ¬Tokens (quote :: rest) := by
  intro h
  generalize hs : quote :: rest = s at h
  cases h with
  | nil => cases hs
  | escape => cases hs
  | byte hb => cases hs; exact hb.1 rfl
  | lone => cases hs

theorem not_tokens_close {rest : Bytes} : ¬Tokens (close :: rest) := by
  intro h
  generalize hs : close :: rest = s at h
  cases h with
  | nil => cases hs
  | escape => cases hs
  | byte hb => cases hs; exact hb.2.1 rfl
  | lone => cases hs

/-- What may follow a byte that is neither a quote nor a closing bracket. -/
theorem tokens_cons {b : UInt8} {rest : Bytes} (hquote : b ≠ quote) (hclose : b ≠ close) :
    Tokens (b :: rest) ↔
      if b = backslash then
        ∃ c tail, rest = c :: tail ∧ if isEscapable c then Tokens tail else Tokens rest
      else Tokens rest := by
  constructor
  · intro h
    generalize hs : b :: rest = s at h
    cases h with
    | nil => cases hs
    | escape hc htail =>
        cases hs
        rw [if_pos rfl]
        exact ⟨_, _, rfl, by rwa [if_pos hc]⟩
    | byte hb htail =>
        cases hs
        rwa [if_neg hb.2.2]
    | lone hc htail =>
        cases hs
        rw [if_pos rfl]
        exact ⟨_, _, rfl, by rwa [hc, if_neg Bool.false_ne_true]⟩
  · intro h
    split at h
    · rename_i hb
      subst hb
      obtain ⟨c, tail, rfl, h⟩ := h
      split at h
      · rename_i hc
        exact .escape hc h
      · rename_i hc
        exact .lone (Bool.eq_false_iff.mpr hc) h
    · rename_i hb
      exact .byte ⟨hquote, hclose, hb⟩ h

/-- A split at a closing quote, one byte further. -/
theorem exists_value_cons {b : UInt8} (hb : b ≠ quote) {s : Bytes} {n i : Nat} :
    (∃ value after, b :: s = value ++ quote :: after ∧ Tokens value ∧ i = n + value.length) ↔
      ∃ value after, s = value ++ quote :: after ∧ Tokens (b :: value) ∧ i = n + 1 + value.length := by
  constructor
  · rintro ⟨value, after, hsplit, htokens, hi⟩
    cases value with
    | nil =>
        cases hsplit
        exact absurd rfl hb
    | cons c value =>
        cases hsplit
        exact ⟨value, after, rfl, htokens, by rw [hi, List.length_cons]; omega⟩
  · rintro ⟨value, after, rfl, htokens, hi⟩
    exact ⟨b :: value, after, rfl, htokens, by rw [hi, List.length_cons]; omega⟩

theorem valueEnd_eq_ok {fuel : Nat} (seen s : Bytes) (hfuel : s.length < fuel) {i : Nat} :
    valueEnd (seen ++ s) fuel seen.length = .ok i ↔
      ∃ value after, s = value ++ quote :: after ∧ Tokens value ∧ i = seen.length + value.length := by
  induction fuel generalizing seen s with
  | zero => exact absurd hfuel (Nat.not_lt_zero _)
  | succ fuel ih =>
      cases s with
      | nil => simp [valueEnd]
      | cons b s =>
          have hs : s.length < fuel := by simpa using hfuel
          have hnext := ih (seen ++ [b]) s hs
          rw [List.append_assoc, List.length_append, List.length_singleton, List.singleton_append] at hnext
          have hbyte : (seen ++ b :: s)[seen.length]? = some b := by simp
          have hafter : (seen ++ b :: s)[seen.length + 1]? = s.head? := by
            rw [List.getElem?_append_right (by omega)]
            simp [List.head?_eq_getElem?]
          rw [valueEnd, hbyte, hafter]
          by_cases hquote : b = quote
          · subst hquote
            simp only [if_pos]
            constructor
            · rintro ⟨⟩
              exact ⟨[], s, rfl, .nil, rfl⟩
            · rintro ⟨value, after, hsplit, htokens, rfl⟩
              cases value with
              | nil => rfl
              | cons c value =>
                  cases hsplit
                  exact absurd htokens not_tokens_quote
          by_cases hclose : b = close
          · subst hclose
            simp only [if_neg hquote, if_pos, reduceCtorEq, false_iff]
            rintro ⟨value, after, hsplit, htokens, -⟩
            cases value with
            | nil => exact hquote (List.cons.inj hsplit).1
            | cons c value =>
                cases hsplit
                exact not_tokens_close htokens
          simp only [if_neg hquote, if_neg hclose, exists_value_cons hquote, tokens_cons hquote hclose]
          by_cases hescape : b = backslash ∧ s.head?.any isEscapable
          · -- the escaped byte is skipped together with its backslash
            obtain ⟨rfl, hhead⟩ := hescape
            cases s with
            | nil => cases hhead
            | cons c s =>
                have hc : isEscapable c = true := hhead
                have hskip := ih (seen ++ [backslash, c]) s (by simp at hs; omega)
                rw [List.append_assoc, List.length_append] at hskip
                rw [if_pos ⟨rfl, hhead⟩]
                simp only [if_pos]
                rw [show seen.length + 1 + 1 = seen.length + [backslash, c].length from rfl,
                  show seen ++ backslash :: c :: s = seen ++ ([backslash, c] ++ s) from rfl, hskip]
                constructor
                · rintro ⟨value, after, rfl, htokens, hi⟩
                  refine ⟨c :: value, after, rfl, ⟨c, value, rfl, by rwa [if_pos hc]⟩, ?_⟩
                  simp only [hi, List.length_cons, List.length_nil]
                  omega
                · rintro ⟨_, after, hsplit, ⟨d, value, rfl, htokens⟩, hi⟩
                  cases hsplit
                  rw [if_pos hc] at htokens
                  refine ⟨value, after, rfl, htokens, ?_⟩
                  simp only [hi, List.length_cons, List.length_nil]
                  omega
          · rw [if_neg hescape, hnext]
            refine exists_congr fun value => exists_congr fun after => ?_
            refine and_congr_right fun hsplit => and_congr_left fun _ => ?_
            split
            · rename_i hb
              -- a value that ended here would have had its closing quote escaped
              have hhead : s.head?.any isEscapable = false :=
                Bool.eq_false_iff.mpr fun h => hescape ⟨hb, h⟩
              cases value with
              | nil =>
                  rw [hsplit] at hhead
                  exact absurd (show isEscapable quote = false from hhead) (by decide)
              | cons c value =>
                  rw [hsplit] at hhead
                  have hc : isEscapable c = false := hhead
                  simp [hc]
            · rfl

theorem valueEnd_split {s : Bytes} {i : Nat} :
    valueEnd s (s.length + 1) 0 = .ok i ↔
      ∃ value after, s = value ++ quote :: after ∧ Tokens value ∧ i = value.length := by
  simpa using valueEnd_eq_ok [] s (Nat.lt_succ_self _) (i := i)

/-! ### Parameters -/

theorem Params.head {params : Bytes} (h : Params params) :
    params = [] ∨ ∃ rest, params = space :: rest := by
  cases h with
  | nil => exact .inl rfl
  | cons => exact .inr ⟨_, rfl⟩

private theorem dropTo_append_pair (name : Bytes) (b c : UInt8) (rest : Bytes) :
    dropTo (name ++ b :: c :: rest) (name.length + 2) = .ok rest := by
  simpa using dropTo_append (name ++ [b, c]) rest

theorem sdParams_eq_ok {fuel : Nat} {s rest : Bytes} (hfuel : s.length < fuel) :
    sdParams fuel s = .ok rest ↔
      ∃ params, Params params ∧ s = params ++ rest ∧ rest.head? ≠ some space := by
  induction fuel generalizing s with
  | zero => exact absurd hfuel (Nat.not_lt_zero _)
  | succ fuel ih =>
      rw [sdParams]
      split
      · rename_i hhead
        obtain ⟨s, rfl⟩ : ∃ t, s = space :: t := by
          cases s with
          | nil => cases hhead
          | cons b s => exact ⟨s, by rw [Option.some.inj hhead]⟩
        rw [dropTo_one_cons, ok_bind]
        simp only [bind_eq_ok, orReject_eq_ok, require_eq_ok, exists_const]
        constructor
        · rintro ⟨n, hn, name, hname, hsdName, hquote, after, hafter, i, hi, value, hvalue, hutf8, tail,
            htail, hrest⟩
          obtain ⟨before, hit, behind, rfl, rfl, hhit, hbefore⟩ := position_eq_some.mp hn
          obtain rfl : hit = equals := by simpa using hhit
          rw [takeTo_append] at hname
          cases hname
          obtain ⟨quoted, rfl⟩ : ∃ quoted, behind = quote :: quoted := by
            rw [List.getElem?_append_right (by omega)] at hquote
            cases behind with
            | nil => simp at hquote
            | cons b quoted => exact ⟨quoted, by simpa using hquote⟩
          rw [dropTo_append_pair] at hafter
          cases hafter
          obtain ⟨value', behind, rfl, htokens, rfl⟩ := valueEnd_split.mp hi
          rw [takeTo_append] at hvalue
          cases hvalue
          rw [dropTo_append_cons] at htail
          cases htail
          have hshort : tail.length < fuel := by
            simp only [List.length_cons, List.length_append] at hfuel
            omega
          obtain ⟨params, hparams, rfl, hstop⟩ := (ih hshort).mp hrest
          exact ⟨_, .cons (sdName_iff.mp hsdName) htokens (isUtf8_iff.mp hutf8) hparams, by simp, hstop⟩
        · rintro ⟨params, hparams, hsplit, hstop⟩
          cases hparams with
          | nil =>
              rw [List.nil_append] at hsplit
              rw [← hsplit] at hstop
              exact absurd rfl hstop
          | @cons name value params hname htokens hvalue hparams =>
              obtain rfl : s = name ++ equals :: quote :: (value ++ quote :: (params ++ rest)) := by
                simpa using hsplit
              have hposition : position (· == equals)
                  (name ++ equals :: (quote :: (value ++ quote :: (params ++ rest)))) = some name.length :=
                position_append _ (by simp) fun b hb => beq_false_of_ne (hname.ne hb).1
              have hshort : (params ++ rest).length < fuel := by
                simp only [List.length_cons, List.length_append] at hfuel ⊢
                omega
              refine ⟨name.length, hposition, name, takeTo_append _ _, sdName_iff.mpr hname, ?_,
                value ++ quote :: (params ++ rest), dropTo_append_pair _ _ _ _, value.length,
                valueEnd_split.mpr ⟨value, params ++ rest, rfl, htokens, rfl⟩, value, takeTo_append _ _,
                isUtf8_iff.mpr hvalue, params ++ rest, dropTo_append_cons _ _ _,
                (ih hshort).mpr ⟨params, hparams, rfl, hstop⟩⟩
              rw [List.getElem?_append_right (by omega)]
              simp
      · rename_i hhead
        constructor
        · rintro ⟨⟩
          exact ⟨[], .nil, rfl, hhead⟩
        · rintro ⟨params, hparams, rfl, hstop⟩
          rcases hparams.head with rfl | ⟨params, rfl⟩
          · rfl
          · exact absurd rfl hhead

/-! ### Elements -/

theorem Elements.head {ids : List Bytes} {elements : Bytes} (h : Elements ids elements) :
    elements = [] ∨ ∃ rest, elements = open_ :: rest := by
  cases h with
  | nil => exact .inl rfl
  | cons => exact .inr ⟨_, rfl⟩

/-- An id ends at the first space or bracket: the parameters begin with one, or the element ends. -/
theorem position_id {id params rest : Bytes} (hid : SdName id) (hparams : Params params) :
    position (fun b => b == space || b == close) (id ++ (params ++ close :: rest)) = some id.length := by
  have hbefore : ∀ b ∈ id, (b == space || b == close) = false := by
    intro b hb
    obtain ⟨-, hclose, hspace⟩ := hid.ne hb
    simp [hclose, hspace]
  rcases hparams.head with rfl | ⟨params, rfl⟩
  · exact position_append rest (by simp) hbefore
  · exact position_append (params ++ close :: rest) (by simp) hbefore

theorem sdElements_eq_ok {fuel : Nat} {s rest : Bytes} {ids all : List Bytes} (hfuel : s.length < fuel) :
    sdElements fuel ids s = .ok (all, rest) ↔
      ∃ new elements, all = ids ++ new ∧ (∀ id ∈ new, id ∉ ids) ∧ new.Nodup ∧ Elements new elements ∧
        s = elements ++ rest ∧ rest.head? ≠ some open_ := by
  induction fuel generalizing s ids with
  | zero => exact absurd hfuel (Nat.not_lt_zero _)
  | succ fuel ih =>
      rw [sdElements]
      split
      · rename_i hhead
        obtain ⟨s, rfl⟩ : ∃ t, s = open_ :: t := by
          cases s with
          | nil => cases hhead
          | cons b s => exact ⟨s, by rw [Option.some.inj hhead]⟩
        rw [dropTo_one_cons, ok_bind]
        simp only [bind_eq_ok, require_eq_ok, exists_const]
        constructor
        · rintro ⟨id, hid, hname, hnew, behind, hbehind, after, hafter, hclose, tail, htail, hrest⟩
          obtain ⟨params, hparams, hbehind', -⟩ := (sdParams_eq_ok (Nat.lt_succ_self _)).mp hafter
          obtain ⟨tail, rfl⟩ : ∃ t, after = close :: t := by
            cases after with
            | nil => cases hclose
            | cons b after => exact ⟨after, by rw [Option.some.inj (beq_iff_eq.mp hclose)]⟩
          rw [dropTo_one_cons] at htail
          cases htail
          rw [hbehind'] at hbehind
          obtain rfl : s = id ++ (params ++ close :: tail) := by
            obtain ⟨-, rfl⟩ := takeTo_eq_ok.mp hid
            obtain ⟨-, hdrop⟩ := dropTo_eq_ok.mp hbehind
            rw [← hdrop, List.take_append_drop]
          have hshort : tail.length < fuel := by
            simp only [List.length_cons, List.length_append] at hfuel
            omega
          obtain ⟨new, elements, rfl, hfresh, hnodup, helements, rfl, hstop⟩ := (ih hshort).mp hrest
          simp only [List.mem_append, List.mem_singleton, not_or] at hfresh
          refine ⟨id :: new, _, by simp, ?_, ?_, .cons (sdName_iff.mp hname) hparams helements, by simp,
            hstop⟩
          · intro other hother
            rcases List.mem_cons.mp hother with rfl | hother
            · simpa using hnew
            · exact (hfresh other hother).1
          · exact List.nodup_cons.mpr ⟨fun hin => (hfresh id hin).2 rfl, hnodup⟩
        · rintro ⟨new, elements, rfl, hfresh, hnodup, helements, hsplit, hstop⟩
          cases helements with
          | nil =>
              rw [List.nil_append] at hsplit
              rw [← hsplit] at hstop
              exact absurd rfl hstop
          | @cons id params elements new hid hparams helements =>
              obtain rfl : s = id ++ (params ++ close :: (elements ++ rest)) := by simpa using hsplit
              obtain ⟨hin, hnodup⟩ := List.nodup_cons.mp hnodup
              have hshort : (elements ++ rest).length < fuel := by
                simp only [List.length_cons, List.length_append] at hfuel ⊢
                omega
              have hparams' : sdParams ((params ++ close :: (elements ++ rest)).length + 1)
                  (params ++ close :: (elements ++ rest)) = .ok (close :: (elements ++ rest)) :=
                (sdParams_eq_ok (Nat.lt_succ_self _)).mpr
                  ⟨params, hparams, rfl, fun h => absurd (Option.some.inj h) (by decide)⟩
              rw [position_id hid hparams]
              refine ⟨id, takeTo_append _ _, sdName_iff.mpr hid, ?_, _, dropTo_append _ _, _, hparams', by simp,
                _, dropTo_one_cons _ _,
                (ih hshort).mpr ⟨new, elements, by simp, ?_, hnodup, helements, rfl, hstop⟩⟩
              · simpa using hfresh id List.mem_cons_self
              · intro other hother
                simp only [List.mem_append, List.mem_singleton, not_or]
                exact ⟨hfresh other (List.mem_cons_of_mem _ hother), fun heq => hin (heq ▸ hother)⟩
      · rename_i hhead
        constructor
        · rintro ⟨⟩
          exact ⟨[], [], by simp, by simp, by simp, .nil, rfl, hhead⟩
        · rintro ⟨new, elements, rfl, -, -, helements, rfl, hstop⟩
          rcases helements.head with rfl | ⟨elements, rfl⟩
          · cases helements
            simp [pure, Except.pure]
          · exact absurd rfl hhead

/-! ### The tail -/

theorem Tail.head {tail : Bytes} (h : Tail tail) : tail.head? ≠ some open_ := by
  rcases h with rfl | ⟨body, rfl, -⟩
  · exact nofun
  · exact fun h => absurd (Option.some.inj h) (by decide)

theorem validTail_iff {s : Bytes} : validTail s = .ok true ↔ Tail s := by
  cases s with
  | nil => simp [validTail, Tail, pure, Except.pure]
  | cons b s =>
      have hbody : ((!byteOrderMark.isPrefixOf s || isUtf8 s) = true) ↔
          (byteOrderMark <+: s → Utf8 s) := by
        rw [Bool.or_eq_true, Bool.not_eq_true', ← Bool.not_eq_true, List.isPrefixOf_iff_prefix,
          ← imp_iff_not_or]
        exact imp_congr_right fun _ => isUtf8_iff
      have htail : Tail (b :: s) ↔ b = space ∧ (byteOrderMark <+: s → Utf8 s) := by
        constructor
        · rintro (h | ⟨body, h, hbom⟩)
          · cases h
          · cases h
            exact ⟨rfl, hbom⟩
        · rintro ⟨rfl, hbom⟩
          exact .inr ⟨s, rfl, hbom⟩
      rw [htail, ← hbody]
      by_cases hspace : b = space
      · subst hspace
        simp [validTail, Scan.get, pure, Except.pure, byteOrderMark]
      · simp [validTail, Scan.get, pure, Except.pure, hspace]

end SyslogDtlsAgent
