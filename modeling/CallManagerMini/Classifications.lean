import CallManagerMini.RefusedDials

/-! # The two classifications of a dial

`DialCall` asks the stack whether the number is an emergency number under the account the caller
named, and saves the answer with the dial.  The policy may then send the dial to another slot, and
`HandleEccCallForDsda` asks again, under that slot.  The first answer becomes the flag of the call,
the second decides whether other calls are ended (`classificationsAgree_iff`).
-/

namespace CallManagerMini

open Prog (Post Moves)

variable {s s' : CallManager} {env : Env}

/-! ## Making way -/

/-- The dial has other calls hung up or rejected. -/
def MakesWay (env : Env) (s : CallManager) : Prop :=
  (handleDialingInfo env (removeSeparatorsPhoneNumber s.dialSrcInfo.number) s.dialSrcInfo
    (flagRaised env s)).2.outgoing ≠ s.outgoing

instance (env : Env) (s : CallManager) : Decidable (MakesWay env s) := by
  unfold MakesWay; infer_instance

theorem makesWay_iff (env : Env) (s : CallManager) : MakesWay env s ↔ EndsCalls env s := by
  have hw := (handleDialingInfo_post env s).1
  unfold MakesWay
  unfold Withdrawn at hw
  split at hw
  · next hends => exact iff_of_true (fun heq => absurd hw (by rw [heq]; exact lt_irrefl _)) hends
  · next hends => exact iff_of_false (fun hne => hne hw.outgoing) hends

/-! ## The flag of the new call -/

/-- The call object a dial makes has the flag of the saved dial, whether the table takes it or
not. -/
theorem addDialingCall_isEcc (env : Env) (h : s.table.Inv) {report : CallDetailInfo}
    (hcarried : report.IsCarried) (hindex : report.index = 0) (hst : report.state = .dialing) :
    Post (addDialingCall env report) s fun _ s' =>
      (s'.call s.calls.next).isEcc = s.dialSrcInfo.isEcc := by
  by_cases hroom : s.callObjectPtrList.length < callObjectLimit s.dialSrcInfo.isEcc
  · have hadm := (admission_iff h report).mpr hroom
    refine Post.mono (addDialingCall_post env h hcarried hst) ?_
    rintro ret s' ⟨hs', -, -⟩
    have hadd := dialAdded_of_table h hcarried hindex hst hadm (congrArg Prod.snd hs')
    have hrow := congrArg Row.isEcc hadd.row
    simpa [CallTable.newRow, Row.setState, CallManager.row, CallBase.row, CallManager.table]
      using hrow
  · have hadm := mt (admission_iff h report).mp hroom
    refine Post.bind (createNewCall_post env h hcarried .outgoing) ?_
    rintro _ s₁ ⟨rfl, hc⟩
    have hecc : (s₁.call s.calls.next).isEcc = s.dialSrcInfo.isEcc := by
      have hrow := congrArg Row.isEcc hc.row
      simpa [CallTable.newRow, CallManager.row, CallBase.row, CallManager.table] using hrow
    refine Post.bind (addOneCallObject_post s₁ s.calls.next) ?_
    rintro ret s₂ ⟨hret, -, hcalls, -, -⟩
    have hne : ret ≠ .success := by
      rw [hret, hc.table, hc.row]
      exact hadm
    rw [if_pos hne]
    show (s₂.calls.get s.calls.next).isEcc = s.dialSrcInfo.isEcc
    rw [hcalls]
    exact hecc

/-- Likewise through `CarrierDialProcess`, which makes the object unless the policy refuses. -/
theorem prepareDial_isEcc (env : Env) (h : SavedDial s) :
    Post (prepareDial env s.dialSrcInfo) s fun _ s' => s.calls.next < s'.calls.next →
      (s'.call s.calls.next).isEcc = s.dialSrcInfo.isEcc ∧
        (isEmergencyDial env s = true → isEccBusy s = false) := by
  refine prepareDial_rule env (Post.bind (Q := fun ret s₁ => s₁.table = s.table ∧
    s₁.dialSrcInfo = s.dialSrcInfo ∧ (ret = .success → isEmergencyDial env s = true →
      isEccBusy s = false)) ?_ ?_)
  · have hq := Moves.rel (R := Quiet) (m := handleDialingInfo env
      (removeSeparatorsPhoneNumber s.dialSrcInfo.number) s.dialSrcInfo) (flagRaised env s)
    refine ⟨hq.table.trans (flagRaised_table env s),
      hq.dialSrcInfo.trans (flagRaised_still env s).dialSrcInfo, fun hret hecc => ?_⟩
    have hidle := (handleDialingInfo_post env s).2.mp hret
    rwa [if_pos hecc] at hidle
  · rintro ret s₁ ⟨ht₁, hd₁, hidle₁⟩
    have hnext : s₁.calls.next = s.calls.next := congrArg CallTable.nextObj ht₁
    refine Post.ite (fun _ => Post.pure fun hlt => ?_) fun hok => ?_
    · rw [hnext] at hlt
      exact absurd hlt (lt_irrefl _)
    · have hnumber : (removeSeparatorsPhoneNumber s.dialSrcInfo.number).length ≤ kMaxNumberLen :=
        h.isCarried.number
      rw [updateCallReportInfo_dialing env h.index hnumber]
      have hadd := addDialingCall_isEcc env (ht₁ ▸ h.inv) h.isCarried h.index rfl
      rw [hnext, hd₁] at hadd
      exact Post.mono hadd fun _ _ hecc _ => ⟨hecc, hidle₁ (not_not.mp hok)⟩

/-! ## The two answers -/

/-- The slot a dial that passed the policies goes to. -/
theorem screenDial_accountId (env : Env) (s : CallManager) (accountNumber : Bytes)
    (extras : DialExtras) :
    Post (screenDial env accountNumber extras) s fun x _ =>
      x.1 = .success → x.2.1.accountId = dialSlot extras := by
  refine Post.bind (Q := fun _ _ => True) trivial fun isEcc s₁ _ => ?_
  refine Post.bind (canDial_post env s₁ _ isEcc) ?_
  rintro policy s₂ ⟨-, hallowed⟩
  refine Post.bind_gets (Post.pure fun hcode => ?_)
  have hok : policy.1 = .success := by
    by_contra hne
    simp [screenCode, hne] at hcode
  rw [(hallowed hok).1]
  cases isEcc with
  | false => rfl
  | true => exact dialSlot_dialScene extras _

theorem savedDial_accountId {accountNumber : Bytes} {extras : DialExtras}
    (hok : (screenDial env accountNumber extras s).1.1 = .success) :
    (savedDial env accountNumber extras s).dialSrcInfo.accountId = dialSlot extras :=
  (setCallTypeExtras_accountId _).trans (screenDial_accountId env s accountNumber extras hok)

section Function
variable {f : Bytes → Int → Bool}
  (hf : ∀ log number slotId, env.answer log (.isEmergencyPhoneNumber number slotId) =
    f number slotId)
include hf

theorem screenDial_isEcc (s : CallManager) (accountNumber : Bytes) (extras : DialExtras) :
    (screenDial env accountNumber extras s).1.2.2 =
      f (removeSeparatorsPhoneNumber accountNumber) extras.accountId :=
  hf _ _ _

/-- The flag that is saved. -/
theorem savedDial_isEcc (s : CallManager) (accountNumber : Bytes) (extras : DialExtras) :
    (savedDial env accountNumber extras s).dialSrcInfo.isEcc =
      f (removeSeparatorsPhoneNumber accountNumber) extras.accountId :=
  screenDial_isEcc hf s accountNumber extras

/-- The answer `HandleEccCallForDsda` gets. -/
theorem isEmergencyDial_savedDial {s : CallManager} {accountNumber : Bytes} {extras : DialExtras}
    (hok : (screenDial env accountNumber extras s).1.1 = .success) :
    isEmergencyDial env (savedDial env accountNumber extras s) =
      f (removeSeparatorsPhoneNumber accountNumber) (dialSlot extras) := by
  have hnumber : (savedDial env accountNumber extras s).dialSrcInfo.number =
      removeSeparatorsPhoneNumber accountNumber := rfl
  unfold isEmergencyDial
  rw [hf, hnumber, removeSeparatorsPhoneNumber_idem, savedDial_accountId hok]

end Function

/-- The classifications of a saved dial agree: the flag that was saved is the answer
`HandleEccCallForDsda` gets; and the dial ends other calls exactly if there are some to be ended
and the call object it makes has the emergency flag. -/
structure ClassificationsAgree (env : Env) (s : CallManager) : Prop where
  flag : s.dialSrcInfo.isEcc = isEmergencyDial env s
  ends : s.calls.next < (prepareDial env s.dialSrcInfo s).2.calls.next →
    (MakesWay env s ↔ findsCallsToEnd s = true ∧
      ((prepareDial env s.dialSrcInfo s).2.call s.calls.next).isEcc = true)

theorem ClassificationsAgree.of_flag (h : SavedDial s)
    (hflag : s.dialSrcInfo.isEcc = isEmergencyDial env s) : ClassificationsAgree env s := by
  refine ⟨hflag, fun hlt => ?_⟩
  obtain ⟨hcall, hidle⟩ := prepareDial_isEcc env h hlt
  rw [makesWay_iff, hcall, hflag]
  constructor
  · exact fun ⟨hecc, _, hfinds⟩ => ⟨hfinds, hecc⟩
  · exact fun ⟨hfinds, hecc⟩ => ⟨hecc, hidle hecc, hfinds⟩

/-- **The two classifications agree** exactly if the stack says the same of the account the caller
named and of the slot the dial goes to. -/
theorem dial_classificationsAgree_iff (env : Env) (f : Bytes → Int → Bool)
    (hf : ∀ log number slotId,
      env.answer log (.isEmergencyPhoneNumber number slotId) = f number slotId)
    (hs : Reachable s) (number : List UInt16) {accountNumber : Bytes} (extras : DialExtras)
    (hlegal : numberLegalityCheck (str16ToStr8 number) = .ok accountNumber)
    (hok : (screenDial env accountNumber extras s).1.1 = .success) :
    ClassificationsAgree env (savedDial env accountNumber extras s) ↔
      f (removeSeparatorsPhoneNumber accountNumber) extras.accountId =
        f (removeSeparatorsPhoneNumber accountNumber) (dialSlot extras) := by
  rw [← savedDial_isEcc hf s accountNumber extras, ← isEmergencyDial_savedDial hf hok]
  have hsaved := (savedDial_saved env (reachable_inv hs) (length_removeSeparators_le hlegal) hok).1
  exact ⟨fun h => h.flag, ClassificationsAgree.of_flag hsaved⟩

/-- A stack for which `110` is an emergency number of slot 0 only. -/
def Env.emergencyOnSlot0 : Env :=
  { Env.obliging with
    answer := fun _ => fun
      | .isEmergencyPhoneNumber number slotId => number = [49, 49, 48] ∧ slotId = 0
      | _ => true }

/-- A dial of `110` under an account that does not exist goes to slot 0, where the number is an
emergency number: the active call is hung up for a call without the emergency flag. -/
theorem dial_classificationsDiffer :
    ∃ s number accountNumber extras,
      (∀ log log' number slotId,
        Env.emergencyOnSlot0.answer log (.isEmergencyPhoneNumber number slotId) =
          Env.emergencyOnSlot0.answer log' (.isEmergencyPhoneNumber number slotId)) ∧
      Reachable s ∧ numberLegalityCheck (str16ToStr8 number) = .ok accountNumber ∧
      (screenDial .emergencyOnSlot0 accountNumber extras s).1.1 = .success ∧
      ¬ClassificationsAgree .emergencyOnSlot0
        (savedDial .emergencyOnSlot0 accountNumber extras s) := by
  refine ⟨.run [(.obliging, plainDial), (.obliging, .callReport activeReport)], [49, 49, 48],
    [49, 49, 48], { accountId := 7 }, fun _ _ _ _ => rfl,
      reachable_run _, by decide, by decide +kernel, fun h => ?_⟩
  exact absurd h.flag (by decide +kernel)

/-- A dial of `110` on slot 0 itself. -/
theorem dial_classificationsAgree_slot0 :
    ClassificationsAgree .emergencyOnSlot0
      (savedDial .emergencyOnSlot0 [49, 49, 48] {}
        (.run [(.obliging, plainDial), (.obliging, .callReport activeReport)])) :=
  (dial_classificationsAgree_iff .emergencyOnSlot0
    (fun number slotId => number = [49, 49, 48] ∧ slotId = 0) (fun _ _ _ => rfl) (reachable_run _)
    [49, 49, 48] {} (by decide) (by decide +kernel)).mpr (by decide)

end CallManagerMini
