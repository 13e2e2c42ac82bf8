import Mathlib.Data.List.TakeWhile
import CallManagerMini.RefusedDials

/-! # The numbers that are dialed

A number comes from the application in UTF-16 and is dialed in bytes: converted, checked, cut at
its first comma, and rid of everything that cannot be dialed.  The check stands before the cut and
the filter, which may leave nothing.  What is dialed is the dialable part of the number
(`str16ToStr8_dialable`), and the stack is asked to dial an empty number exactly for the numbers
that pass the check and have no such part (`dialCall_dialsWell_iff`).
-/

namespace CallManagerMini

open Prog (Post Moves)

variable {s s' : CallManager} {env : Env}

/-! ## The dialable part -/

/-- A UTF-16 unit that can be dialed: a digit, `*`, `#`, `+`, `N` or `;`. -/
def isDialableUnit (unit : UInt16) : Bool :=
  (48 ≤ unit && unit ≤ 57) || unit = 42 || unit = 35 || unit = 43 || unit = 78 || unit = 59

/-- The dialable characters of a number before its first comma. -/
def dialableUnits (number : List UInt16) : List UInt16 :=
  (number.takeWhile (· ≠ 44)).filter isDialableUnit

/-- What the cut and the filter leave of a converted number. -/
def dialablePart (number : Bytes) : Bytes :=
  removeSeparatorsPhoneNumber (number.takeWhile (· ≠ comma))

theorem dialablePart_cons {c : UInt8} (hc : c ≠ comma) (b : Bytes) :
    dialablePart (c :: b) = if isDialable c then c :: dialablePart b else dialablePart b := by
  unfold dialablePart removeSeparatorsPhoneNumber
  rw [List.takeWhile_cons_of_pos (by simpa using hc), List.filter_cons]

/-- Bytes beyond ASCII are dropped, and do not end the number. -/
theorem dialablePart_append {l : Bytes} (hl : ∀ c ∈ l, 0x80 ≤ c.toNat) (b : Bytes) :
    dialablePart (l ++ b) = dialablePart b := by
  induction l with
  | nil => rfl
  | cons c l ih =>
    have hc : 0x80 ≤ c.toNat := hl c List.mem_cons_self
    have hcomma : c ≠ comma := by
      rintro rfl
      exact absurd hc (by decide)
    have hnot : isDialable c = false := by
      rw [Bool.eq_false_iff]
      intro hdial
      simp only [isDialable, comma, Bool.or_eq_true, Bool.and_eq_true, decide_eq_true_eq,
        UInt8.le_iff_toNat_le, ← UInt8.toNat_inj] at hdial
      simp at hdial
      omega
    rw [List.cons_append, dialablePart_cons hcomma, hnot]
    exact ih fun c' hc' => hl c' (List.mem_cons_of_mem c hc')

/-- A byte that is made with the high bit has it. -/
theorem le_toNat_ofNat_or {a x : Nat} (ha : 0x80 ≤ a) (ha' : a < 0x100) :
    0x80 ≤ (UInt8.ofNat (a ||| x)).toNat := by
  have hmod : (UInt8.ofNat (a ||| x)).toNat = a ||| (x % 0x100) := by
    rw [UInt8.toNat_ofNat']
    have := Nat.or_mod_two_pow (a := a) (b := x) (n := 8)
    rw [Nat.mod_eq_of_lt ha'] at this
    exact this
  rw [hmod]
  exact Nat.le_trans ha Nat.left_le_or

/-- A code point beyond ASCII is encoded beyond ASCII. -/
theorem appendUtf8_high {cp : Nat} (hcp : 0x80 ≤ cp) : ∀ c ∈ appendUtf8 cp, 0x80 ≤ c.toNat := by
  unfold appendUtf8
  rw [if_neg (by omega)]
  split_ifs
  all_goals
    intro c hc
    simp only [List.mem_cons, List.not_mem_nil, or_false] at hc
    rcases hc with rfl | hc
    · exact le_toNat_ofNat_or (by decide) (by decide)
  · subst hc
    exact le_toNat_ofNat_or (by decide) (by decide)
  · rcases hc with rfl | rfl <;> exact le_toNat_ofNat_or (by decide) (by decide)
  · rcases hc with rfl | rfl | rfl <;> exact le_toNat_ofNat_or (by decide) (by decide)

theorem dialableUnits_cons {unit : UInt16} (hunit : unit ≠ 44) (number : List UInt16) :
    dialableUnits (unit :: number) =
      if isDialableUnit unit then unit :: dialableUnits number else dialableUnits number := by
  unfold dialableUnits
  rw [List.takeWhile_cons_of_pos (by simpa using hunit), List.filter_cons]

/-- A unit beyond ASCII is dropped. -/
theorem dialableUnits_high {unit : UInt16} (hunit : 0x80 ≤ unit.toNat) (number : List UInt16) :
    dialableUnits (unit :: number) = dialableUnits number := by
  have hcomma : unit ≠ 44 := by
    rintro rfl
    exact absurd hunit (by decide)
  have hnot : isDialableUnit unit = false := by
    rw [Bool.eq_false_iff]
    intro hdial
    simp only [isDialableUnit, Bool.or_eq_true, Bool.and_eq_true, decide_eq_true_eq,
      UInt16.le_iff_toNat_le, ← UInt16.toNat_inj] at hdial
    simp at hdial
    omega
  rw [dialableUnits_cons hcomma, hnot]
  rfl

/-- An ASCII unit is the comma, or dialable, if its byte is. -/
theorem ascii_unit : ∀ n < 0x80,
    (UInt8.ofNat n = comma ↔ UInt16.ofNat n = 44) ∧ (UInt16.ofNat n).toUInt8 = UInt8.ofNat n ∧
      (UInt8.ofNat n ≠ comma → isDialable (UInt8.ofNat n) = isDialableUnit (UInt16.ofNat n)) := by
  decide

/-- The dialable part of the bytes is that of the units. -/
theorem dialablePart_encodeUtf16 {units : List UInt16} {bytes : Bytes}
    (h : encodeUtf16 units = some bytes) :
    dialablePart bytes = (dialableUnits units).map UInt16.toUInt8 := by
  fun_induction encodeUtf16 units generalizing bytes with
  | case1 =>
    cases h
    rfl
  | case2 => cases h
  | case3 => cases h
  | case4 unit hunit low rest hlow ih =>
    -- a surrogate pair is one code point beyond ASCII
    obtain ⟨tail, htail, rfl⟩ := Option.map_eq_some_iff.mp h
    rw [dialablePart_append (appendUtf8_high (by omega)), ih htail,
      dialableUnits_high (by omega), dialableUnits_high (by omega)]
  | case5 => cases h
  | case6 unit rest hhigh hlow ih =>
    obtain ⟨tail, htail, rfl⟩ := Option.map_eq_some_iff.mp h
    by_cases hascii : unit.toNat < 0x80
    · obtain ⟨hcomma, hbyte, hdial⟩ := ascii_unit unit.toNat hascii
      rw [UInt16.ofNat_toNat] at hcomma hbyte hdial
      rw [show appendUtf8 unit.toNat = [UInt8.ofNat unit.toNat] from if_pos hascii,
        List.singleton_append]
      by_cases hend : unit = 44
      · rw [hcomma.mpr hend, hend]
        rfl
      · have hne := mt hcomma.mp hend
        rw [dialablePart_cons hne, dialableUnits_cons hend, hdial hne, ih htail]
        split
        · rw [List.map_cons, hbyte]
        · rfl
    · rw [dialablePart_append (appendUtf8_high (by omega)), ih htail,
        dialableUnits_high (by omega)]

/-! ## What is sent -/

/-- A dial sends the number it saved, or nothing. -/
theorem DialEntered.sends {t t' : CallTable} {report : CallDetailInfo} {dial : CellularCallInfo}
    {ret : RetCode} (hent : DialEntered env t t' report dial ret) (h : t.Inv)
    (hinfo : report.IsCarried) (hindex : report.index = 0) (hst : report.state = .dialing) :
    ∃ l, t'.history.filterMap Mark.sentDial = t.history.filterMap Mark.sentDial ++ l ∧
      ∀ dialed ∈ l, dialed = dial.phoneNum := by
  rcases hent with ⟨-, -, rfl⟩ | ⟨hadm, log, reply, -, hans⟩
  · exact ⟨[], (List.append_nil _).symm, by simp⟩
  have hadd := @CallTable.addDialing_of_success t report (by rwa [dialing_state hst])
  have hmem : t.dialRow report ∈ (t.addDialing report).2.rows := by
    rw [hadd]
    exact List.mem_append_right _ (List.mem_singleton.mpr rfl)
  have hinv : (t.addDialing report).2.Inv := h.addDialing hinfo fun _ _ hpos => by omega
  have hsent := DialReplied.sentDials (t := (t.addDialing report).2) hans hinv hmem
  have hhist : (t.addDialing report).2.history =
      t.history ++ [.added (t.lastCallId + 1) .dialing] := by rw [hadd]
  rw [hhist, List.filterMap_append, List.filterMap_cons_none rfl, List.filterMap_nil,
    List.append_nil] at hsent
  refine ⟨_, hsent, fun dialed hd => ?_⟩
  obtain ⟨code, -, rfl⟩ := Option.map_eq_some_iff.mp (Option.mem_toList.mp hd)
  rfl

/-- What a saved dial sends. -/
theorem carrierDialProcess_sends (env : Env) (h : SavedDial s) :
    Post (carrierDialProcess env s.dialSrcInfo) s fun _ s' => s'.dialSrcInfo = s.dialSrcInfo ∧
      ∃ l, s'.sentDials = s.sentDials ++ l ∧ ∀ dialed ∈ l, dialed = s.dialSrcInfo.number := by
  refine Post.mono (carrierDialProcess_post env h.inv h.flag h.callType h.index h.number) ?_
  rintro ret s' ⟨hframe, s₁, -, hout⟩
  refine ⟨hframe.dialSrcInfo, ?_⟩
  split at hout
  · exact hout.sends h.inv h.isCarried h.index rfl
  · refine ⟨[], ?_, by simp⟩
    rw [List.append_nil]
    exact congrArg (fun t => t.history.filterMap Mark.sentDial) hout.2

/-- What a dial of a legal number sends: the number the stack was first asked about. -/
theorem dialLegalNumber_sends (env : Env) (h : ServiceInv s) {accountNumber : Bytes}
    (hn : (removeSeparatorsPhoneNumber accountNumber).length ≤ kMaxNumberLen)
    (extras : DialExtras) :
    Post (CallControlManager.dialLegalNumber env accountNumber extras) s fun _ s' =>
      ∃ l, s'.sentDials = s.sentDials ++ l ∧ ∀ dialed ∈ l,
        dialed = removeSeparatorsPhoneNumber accountNumber ∧ s'.dialSrcInfo.number = dialed ∧
          s'.dialSrcInfo.isEcc = isEmergencyNumber env s dialed extras.accountId := by
  rw [dialLegalNumber_eq]
  refine Post.bind (Q := fun x s₁ => (x, s₁) = screenDial env accountNumber extras s) rfl ?_
  rintro x s₁ hscreen
  have hq : Quiet s (screenDial env accountNumber extras s).2 := Moves.rel s
  rw [← hscreen] at hq
  refine Post.ite (fun _ => Post.pure ⟨[], ?_, by simp⟩) fun hok => ?_
  · rw [List.append_nil]
    exact congrArg (List.filterMap Mark.sentDial) hq.history
  have hok : (screenDial env accountNumber extras s).1.1 = .success := by
    rw [← hscreen]
    exact not_not.mp hok
  obtain ⟨hsaved, heq⟩ := savedDial_saved env h hn hok
  refine Post.bind (Q := fun _ s₂ => s₂ = savedDial env accountNumber extras s) ?_ ?_
  · unfold savedDial
    rw [← hscreen]
    rfl
  rintro _ _ rfl
  refine Post.congr heq (Post.mono (carrierDialProcess_sends env hsaved) ?_)
  rintro ret s' ⟨hdial, l, hsent, hl⟩
  have hbefore : (savedDial env accountNumber extras s).sentDials = s.sentDials := by
    have hq : Quiet s (screenDial env accountNumber extras s).2 := Moves.rel s
    exact congrArg (List.filterMap Mark.sentDial) hq.history
  refine ⟨l, by rw [hsent, hbefore], fun dialed hd => ?_⟩
  rw [hl dialed hd, hdial]
  exact ⟨rfl, rfl, rfl⟩

/-! ## Dialing well -/

/-- `dialed` may be dialed for `number`: it is a number, it is the dialable part of `number`, and
it is the number that was classified, and saved with its classification. -/
structure DialsWell (env : Env) (s s' : CallManager) (number : List UInt16) (extras : DialExtras)
    (dialed : Bytes) : Prop where
  ne : dialed ≠ []
  dialable : ∀ c ∈ dialed, isDialable c = true ∧ c ≠ comma
  length_le : dialed.length ≤ kMaxNumberLen
  eq : dialed = (dialableUnits number).map UInt16.toUInt8
  saved : s'.dialSrcInfo.number = dialed
  classified : s'.dialSrcInfo.isEcc = isEmergencyNumber env s dialed extras.accountId

/-- A number that passes the check has something to be dialed. -/
def HasDialablePart (number : List UInt16) : Prop :=
  ∀ accountNumber, numberLegalityCheck (str16ToStr8 number) = .ok accountNumber →
    dialableUnits number ≠ []

/-- The dialable part of a number that passes the check. -/
theorem dialable_of_legal {number : List UInt16} {accountNumber : Bytes}
    (h : numberLegalityCheck (str16ToStr8 number) = .ok accountNumber) :
    removeSeparatorsPhoneNumber accountNumber = (dialableUnits number).map UInt16.toUInt8 := by
  unfold numberLegalityCheck at h
  split_ifs at h with hempty
  injection h with h
  subst h
  change dialablePart (str16ToStr8 number) = _
  unfold str16ToStr8 at hempty ⊢
  cases hb : encodeUtf16 number with
  | none => exact absurd (by rw [hb]; rfl) hempty
  | some bytes => exact dialablePart_encodeUtf16 hb

/-- The dialable part has dialable characters, and no comma. -/
theorem dialable_mem {number : List UInt16} {accountNumber : Bytes}
    (h : numberLegalityCheck (str16ToStr8 number) = .ok accountNumber) :
    ∀ c ∈ removeSeparatorsPhoneNumber accountNumber, isDialable c = true ∧ c ≠ comma := by
  unfold numberLegalityCheck at h
  split_ifs at h
  injection h with h
  subst h
  intro c hc
  obtain ⟨hcut, hdial⟩ := List.mem_filter.mp hc
  exact ⟨hdial, by simpa using List.mem_takeWhile_imp hcut⟩

/-- **Only dialable numbers reach the stack**, from whatever state and with whatever extras, exactly
if the number has a dialable part or does not pass the check. -/
theorem dialCall_dialsWell_iff (number : List UInt16) :
    (∀ env s extras, Reachable s →
      let s' := (CallControlManager.dialCall env number extras s).2
      ∃ l, s'.sentDials = s.sentDials ++ l ∧
        ∀ dialed ∈ l, DialsWell env s s' number extras dialed) ↔
      HasDialablePart number := by
  constructor
  · intro hall accountNumber hlegal hnone
    obtain ⟨l, hsent, hwell⟩ := hall .obliging .init {} (.start rfl)
    have hempty : removeSeparatorsPhoneNumber accountNumber = [] := by
      rw [dialable_of_legal hlegal, hnone]
      rfl
    have heq : CallControlManager.dialCall .obliging number {} =
        CallControlManager.dialLegalNumber .obliging [] {} := by
      unfold CallControlManager.dialCall
      rw [hlegal]
      change CallControlManager.dialLegalNumber .obliging accountNumber {} = _
      unfold CallControlManager.dialLegalNumber
      rw [hempty]
      rfl
    rw [heq] at hsent
    have hdialed : (CallControlManager.dialLegalNumber .obliging [] {} .init).2.sentDials =
      [[]] := by
      decide +kernel
    have hmem : [] ∈ l := by
      rw [hdialed] at hsent
      change [[]] = [] ++ l at hsent
      rw [← List.nil_append l, ← hsent]
      exact List.mem_singleton.mpr rfl
    exact (hwell [] hmem).ne rfl
  · intro hpart env s extras hs
    unfold CallControlManager.dialCall
    cases hlegal : numberLegalityCheck (str16ToStr8 number) with
    | error ret => exact ⟨[], (List.append_nil _).symm, by simp⟩
    | ok accountNumber =>
      obtain ⟨l, hsent, hl⟩ := dialLegalNumber_sends env (reachable_inv hs)
        (length_removeSeparators_le hlegal) extras
      refine ⟨l, hsent, fun dialed hd => ?_⟩
      obtain ⟨rfl, hsaved, hclass⟩ := hl dialed hd
      have heq := dialable_of_legal hlegal
      exact
        { ne := by
            rw [heq]
            exact mt List.map_eq_nil_iff.mp (hpart accountNumber hlegal)
          dialable := dialable_mem hlegal
          length_le := length_removeSeparators_le hlegal
          eq := heq
          saved := hsaved
          classified := hclass }

/-- A dial of `abc` asks the stack to dial an empty number. -/
theorem dialCall_dialsEmpty :
    ∃ env s number extras, Reachable s ∧
      let s' := (CallControlManager.dialCall env number extras s).2
      ¬∃ l, s'.sentDials = s.sentDials ++ l ∧
        ∀ dialed ∈ l, DialsWell env s s' number extras dialed := by
  refine ⟨.obliging, .init, [97, 98, 99], {}, .start rfl, ?_⟩
  rintro s' ⟨l, hsent, hwell⟩
  have hdialed : (CallControlManager.dialCall .obliging [97, 98, 99] {} .init).2.sentDials =
    [[]] := by
    decide +kernel
  change _ = [] ++ l at hsent
  rw [List.nil_append, hdialed] at hsent
  exact (hwell [] (hsent ▸ List.mem_singleton.mpr rfl)).ne rfl

end CallManagerMini
