import CallManagerMini.Classifications

/-! # Emergency dials

A number the stack takes for an emergency number on every slot is to reach it whatever the other
calls, the SIM and the network are.  `DialCall` asks about the number under the account the caller
named, which need not be a slot at all, and again under the slot the dial goes to: where the first
answer is no, the dial has to pass as an ordinary one, where the second is no it has to be allowed
next to the other calls.  And a video request is turned away next to another call, emergency or not
(`dialCall_emergency_iff`).
-/

namespace CallManagerMini

open Prog (Post Moves)

variable {s s' : CallManager} {env : Env} {extras : DialExtras}

/-- The dials the emergency promise is about, once the application's extras are read:
a supported type and call type, and a voice or video request. -/
structure DialExtras.IsSupported (extras : DialExtras) : Prop where
  dialType : DialType.ofInt extras.dialType = .carrier ∨ DialType.ofInt extras.dialType = .voiceMail
  callType : CallType.ofInt extras.callType = .cs ∨ CallType.ofInt extras.callType = .ims
  videoState : extras.videoState = VideoStateType.voice.toInt ∨
    extras.videoState = VideoStateType.video.toInt

/-- A video request next to a call of the table. -/
def IsBusyForVideo (s : CallManager) (extras : DialExtras) : Prop :=
  extras.videoState = VideoStateType.video.toInt ∧ hasCellularCallExist s = true

instance (s : CallManager) (extras : DialExtras) : Decidable (IsBusyForVideo s extras) := by
  unfold IsBusyForVideo; infer_instance

/-! ## The checks of an ordinary dial -/

/-- What the policies ask of a dial whose number is not an emergency number under the account the
caller named: a known scene, no emergency call, a SIM and a network on the slot the dial goes to, no
video call next to a voice dial, and no call that is being set up. -/
structure PassesPolicies (env : Env) (s : CallManager) (number : Bytes) (extras : DialExtras) :
    Prop where
  scene : validateDialScene extras.dialScene = .success
  noEcc : hasEmergencyCall s = false
  inService : (hasNormalCall env false (dialSlot extras)
    (ask env (.isEmergencyPhoneNumber number extras.accountId) s).2).1 = .success
  noVideo : extras.videoState = VideoStateType.voice.toInt → hasVideoCall s = false
  noNew : hasNewCall s = false

instance (env : Env) (s : CallManager) (number : Bytes) (extras : DialExtras) :
    Decidable (PassesPolicies env s number extras) :=
  decidable_of_iff (_ ∧ _ ∧ _ ∧ _ ∧ _)
    ⟨fun h => PassesPolicies.mk h.1 h.2.1 h.2.2.1 h.2.2.2.1 h.2.2.2.2,
      fun h => ⟨h.scene, h.noEcc, h.inService, h.noVideo, h.noNew⟩⟩

@[simp] theorem selectAccountIdForCarrier_videoState (dialType : DialType) (extras : DialExtras) :
    (selectAccountIdForCarrier dialType extras).videoState = extras.videoState := by
  unfold selectAccountIdForCarrier; split <;> rfl

@[simp] theorem selectAccountIdForCarrier_dialScene (dialType : DialType) (extras : DialExtras) :
    (selectAccountIdForCarrier dialType extras).dialScene = extras.dialScene := by
  unfold selectAccountIdForCarrier; split <;> rfl

namespace DialExtras.IsSupported

variable (h : extras.IsSupported)
include h

theorem checkDialType : checkDialType (DialType.ofInt extras.dialType) = .success := by
  rcases h.dialType with hd | hd <;> rw [hd] <;> rfl

theorem validateCallType : validateCallType (CallType.ofInt extras.callType) = .success := by
  rcases h.callType with hc | hc <;> rw [hc] <;> rfl

theorem validateVideoState : validateVideoState extras.videoState = .success := by
  rcases h.videoState with hv | hv <;> rw [hv] <;> rfl

/-- What is left of `DialPolicy` for a supported dial. -/
theorem dialPolicy_eq (env : Env) (isEcc : Bool) (s : CallManager) :
    dialPolicy env extras isEcc s =
      (let selected := selectAccountIdForCarrier (DialType.ofInt extras.dialType) extras
      if validateDialScene extras.dialScene ≠ .success then
        pure (validateDialScene extras.dialScene, selected)
      else if !isEcc && hasEmergencyCall s then pure (.callErrCallCountsExceedLimit, selected)
      else do
        let ret ← hasNormalCall env isEcc (dialSlot extras)
        pure (ret, selected) : Prog CallManager (RetCode × DialExtras)) s := by
  simp only [dialPolicy, Prog.bind_apply, Prog.gets_apply, h.checkDialType, ne_eq,
    not_true_eq_false,
    if_false, selectAccountIdForCarrier_callType, h.validateCallType,
    selectAccountIdForCarrier_dialScene, selectAccountIdForCarrier_videoState, h.validateVideoState]
  rfl

end DialExtras.IsSupported

/-! ## The screen -/

theorem canDialMulityCall_iff (isEcc : Bool) :
    canDialMulityCall s extras isEcc = .success ↔ ¬IsBusyForVideo s extras ∧
      (isEcc = false → extras.videoState = VideoStateType.voice.toInt →
        hasVideoCall s = false) := by
  unfold canDialMulityCall IsBusyForVideo
  cases isEcc <;> cases hasCellularCallExist s <;> cases hasVideoCall s <;>
    by_cases hvideo : extras.videoState = VideoStateType.video.toInt <;>
    by_cases hvoice : extras.videoState = VideoStateType.voice.toInt <;>
    simp [hvideo, hvoice]

/-- The multi-call check sees the calls, whatever was asked in between, and not the slot. -/
theorem Still.canDialMulityCall (h : Still s s') (dialType : DialType) (isEcc : Bool) :
    canDialMulityCall s' (selectAccountIdForCarrier dialType extras) isEcc =
      canDialMulityCall s extras isEcc := by
  unfold CallManagerMini.canDialMulityCall hasCellularCallExist hasVideoCall
  rw [h.anyCall, h.anyCall, selectAccountIdForCarrier_videoState]

/-- A supported dial passes `CanDial`. -/
theorem DialExtras.IsSupported.canDial_iff (h : extras.IsSupported) (env : Env) (isEcc : Bool)
    (s : CallManager) :
    (canDial env extras isEcc s).1.1 = .success ↔
      validateDialScene extras.dialScene = .success ∧ ¬IsBusyForVideo s extras ∧
        (isEcc = false → hasEmergencyCall s = false ∧
          (hasNormalCall env false (dialSlot extras) s).1 = .success ∧
          (extras.videoState = VideoStateType.voice.toInt → hasVideoCall s = false)) := by
  have hstill : Still s (hasNormalCall env isEcc (dialSlot extras) s).2 := Moves.rel s
  simp only [canDial, Prog.bind_apply, h.dialPolicy_eq]
  by_cases hscene : validateDialScene extras.dialScene = .success
  · cases isEcc with
    | true =>
      -- the SIM and the network are not asked about
      simp [hscene, hasNormalCall, (Still.refl s).canDialMulityCall, canDialMulityCall_iff]
    | false =>
      by_cases hecc : hasEmergencyCall s = true
      · simp [hscene, hecc]
      · by_cases hsim : (hasNormalCall env false (dialSlot extras) s).1 = .success
        · simp [hscene, hecc, hsim, hstill.canDialMulityCall, canDialMulityCall_iff]
        · simp [hscene, hecc, hsim]
  · simp [hscene]

theorem screenCode_eq_success {ret : RetCode} {isEcc busy : Bool} :
    screenCode ret isEcc busy = .success ↔ ret = .success ∧ (isEcc = false → busy = false) := by
  unfold screenCode
  by_cases hret : ret = .success
  · cases isEcc <;> cases busy <;> simp [hret]
  · simp [hret]

/-- A supported dial is saved, and `CarrierDialProcess` reached, exactly if it is not a video
request next to a call, and passes the policies of an ordinary dial where the number is not known
for an emergency number. -/
theorem DialExtras.IsSupported.screenDial_iff (h : extras.IsSupported) (env : Env)
    (s : CallManager) (accountNumber : Bytes) :
    (screenDial env accountNumber extras s).1.1 = .success ↔ ¬IsBusyForVideo s extras ∧
      (isEmergencyNumber env s (removeSeparatorsPhoneNumber accountNumber) extras.accountId = false →
        PassesPolicies env s (removeSeparatorsPhoneNumber accountNumber) extras) := by
  have hask : (ask env (.isEmergencyPhoneNumber (removeSeparatorsPhoneNumber accountNumber)
      extras.accountId) s).1 =
        isEmergencyNumber env s (removeSeparatorsPhoneNumber accountNumber) extras.accountId := rfl
  have hstill : Still s (ask env (.isEmergencyPhoneNumber
      (removeSeparatorsPhoneNumber accountNumber) extras.accountId) s).2 := Moves.rel s
  simp only [screenDial, Prog.bind_apply, Prog.gets_apply, Prog.pure_apply, hask,
    screenCode_eq_success]
  cases hecc : isEmergencyNumber env s (removeSeparatorsPhoneNumber accountNumber)
      extras.accountId with
  | true =>
    -- an emergency dial has the emergency scene, whatever the caller asked for
    have hsupported : DialExtras.IsSupported
        { extras with dialScene := DialScene.emergency.toInt } :=
      ⟨h.dialType, h.callType, h.videoState⟩
    simp only [if_true, hsupported.canDial_iff]
    have hscene : validateDialScene DialScene.emergency.toInt = .success := by decide
    simp only [hscene, true_and, Bool.true_eq_false, false_implies, and_true]
    exact Iff.rfl
  | false =>
    have hnew : ∀ s', Still s s' → hasNewCall s' = hasNewCall s := fun _ hs => hs.anyCall _
    have hasked := hstill.trans (Moves.rel (R := Still) (m := canDial env extras false)
      (ask env (.isEmergencyPhoneNumber (removeSeparatorsPhoneNumber accountNumber)
        extras.accountId) s).2)
    simp only [Bool.false_eq_true, if_false, h.canDial_iff, hnew _ hasked, true_implies]
    constructor
    · rintro ⟨⟨hscene, hbusy, hecc, hsim, hvideo⟩, hnone⟩
      exact ⟨hbusy, hscene, hecc, hsim, hvideo, hnone⟩
    · rintro ⟨hbusy, hscene, hecc, hsim, hvideo, hnone⟩
      exact ⟨⟨hscene, hbusy, hecc, hsim, hvideo⟩, hnone⟩

/-! ## What happens to an emergency dial -/

/-- What an emergency dial must meet to reach the stack.  It is not a video request next to a call.
If the caller named no slot, and the stack does not take the number for an emergency number under
that account, the dial passes as an ordinary one, and finds a place that is not reserved.  And if it
goes to voice mail under such an account, and is not taken for an emergency dial when
`HandleEccCallForDsda` asks again, a further call is allowed. -/
structure ReachesStack (env : Env) (s : CallManager) (accountNumber : Bytes)
    (extras : DialExtras) : Prop where
  video : ¬IsBusyForVideo s extras
  ordinary : isValidSlotId extras.accountId = false →
    isEmergencyNumber env s (removeSeparatorsPhoneNumber accountNumber) extras.accountId = false →
      PassesPolicies env s (removeSeparatorsPhoneNumber accountNumber) extras ∧
        s.callObjectPtrList.length < callObjectLimit false
  allowed : isValidSlotId extras.accountId = false → DialType.ofInt extras.dialType = .voiceMail →
    isEmergencyDial env (savedDial env accountNumber extras s) = false →
      isNewCallAllowedCreate s = true

/-- No emergency call is being set up, so none keeps an emergency dial from its way. -/
theorem isEccBusy_eq_false
    (hidle : ∀ p ∈ s.callObjectPtrList, (s.call p).isEcc = true → (s.call p).isSettingUp = false) :
    isEccBusy s = false := by
  unfold isEccBusy
  rw [List.any_eq_false]
  intro p hp hbusy
  simp only [Bool.and_eq_true] at hbusy
  rw [hidle p (mem_of_eccCalls hp) hbusy.2] at hbusy
  cases hbusy.1.2

/-- A dial that is saved is admitted. -/
theorem savedDial_admitted_iff (env : Env) (s : CallManager) (accountNumber : Bytes)
    (extras : DialExtras) :
    DialAdmitted env (savedDial env accountNumber extras s) ↔
      (if isEmergencyDial env (savedDial env accountNumber extras s) then isEccBusy s = false
        else isNewCallAllowedCreate s = true) ∧
      s.callObjectPtrList.length < callObjectLimit
        (isEmergencyNumber env s (removeSeparatorsPhoneNumber accountNumber) extras.accountId) := by
  have hstill : Still s (screenDial env accountNumber extras s).2 := Moves.rel s
  -- saving a dial touches none of the calls
  have hbusy : isEccBusy (savedDial env accountNumber extras s) = isEccBusy s := hstill.isEccBusy
  have hallowed : isNewCallAllowedCreate (savedDial env accountNumber extras s) =
      isNewCallAllowedCreate s := hstill.isNewCallAllowedCreate
  have hlist : (savedDial env accountNumber extras s).callObjectPtrList = s.callObjectPtrList :=
    hstill.list
  rw [← hbusy, ← hallowed, ← hlist]
  exact ⟨fun h => ⟨h.allowed, h.room⟩, fun h => ⟨h.1, h.2⟩⟩

/-- The second question is put about the slot the dial goes to. -/
theorem isEmergencyDial_of_valid {accountNumber : Bytes}
    (hecc : ∀ log slotId, isValidSlotId slotId = true → env.answer log
      (.isEmergencyPhoneNumber (removeSeparatorsPhoneNumber accountNumber) slotId) = true)
    (hok : (screenDial env accountNumber extras s).1.1 = .success)
    (hslot : isValidSlotId (dialSlot extras) = true) :
    isEmergencyDial env (savedDial env accountNumber extras s) = true := by
  have hnumber : (savedDial env accountNumber extras s).dialSrcInfo.number =
      removeSeparatorsPhoneNumber accountNumber := rfl
  unfold isEmergencyDial
  rw [hnumber, removeSeparatorsPhoneNumber_idem, savedDial_accountId hok]
  exact hecc _ _ hslot

/-- A dial goes to a slot, but for a voice mail under an account that is none. -/
theorem dialSlot_valid (h : extras.IsSupported)
    (hslot : isValidSlotId extras.accountId = false → DialType.ofInt extras.dialType ≠ .voiceMail) :
    isValidSlotId (dialSlot extras) = true := by
  unfold dialSlot selectAccountIdForCarrier
  cases hv : isValidSlotId extras.accountId with
  | true => simp [hv]
  | false =>
    rw [if_pos ⟨h.dialType.resolve_right (hslot hv), rfl⟩]
    rfl

section Emergency
variable {accountNumber : Bytes} (h : extras.IsSupported)
  (hecc : ∀ log slotId, isValidSlotId slotId = true → env.answer log
    (.isEmergencyPhoneNumber (removeSeparatorsPhoneNumber accountNumber) slotId) = true)
  (hidle : ∀ p ∈ s.callObjectPtrList, (s.call p).isEcc = true → (s.call p).isSettingUp = false)
  (hroom : s.callObjectPtrList.length < miniMaxCallObjects)
include h hecc hidle hroom

/-- An emergency dial is saved and admitted exactly if it meets `ReachesStack`. -/
theorem reachesStack_iff :
    (screenDial env accountNumber extras s).1.1 = .success ∧
        DialAdmitted env (savedDial env accountNumber extras s) ↔
      ReachesStack env s accountNumber extras := by
  rw [h.screenDial_iff, savedDial_admitted_iff, isEccBusy_eq_false hidle]
  constructor
  · rintro ⟨⟨hvideo, hpasses⟩, hallowed, hplace⟩
    refine ⟨hvideo, fun hslot hno => ?_, fun hslot hmail hno => ?_⟩
    · rw [hno] at hplace
      exact ⟨hpasses hno, hplace⟩
    · rwa [hno, if_neg Bool.false_ne_true] at hallowed
  · intro hr
    have hpasses : isEmergencyNumber env s (removeSeparatorsPhoneNumber accountNumber)
        extras.accountId = false →
          PassesPolicies env s (removeSeparatorsPhoneNumber accountNumber) extras ∧
            s.callObjectPtrList.length < callObjectLimit false := by
      intro hno
      -- the stack knows the number on every slot, so it was asked under no slot
      refine hr.ordinary ?_ hno
      rw [Bool.eq_false_iff]
      intro hslot
      rw [isEmergencyNumber, hecc _ _ hslot] at hno
      cases hno
    have hok := (h.screenDial_iff env s accountNumber).mpr
      ⟨hr.video, fun hno => (hpasses hno).1⟩
    refine ⟨⟨hr.video, fun hno => (hpasses hno).1⟩, ?_, ?_⟩
    · cases hagain : isEmergencyDial env (savedDial env accountNumber extras s) with
      | true => rfl
      | false =>
        rw [if_neg Bool.false_ne_true]
        -- the dial goes to a slot, but for a voice mail dial under no slot
        by_cases hmail : isValidSlotId extras.accountId = false ∧
            DialType.ofInt extras.dialType = .voiceMail
        · exact hr.allowed hmail.1 hmail.2 hagain
        · have hslot := dialSlot_valid h fun hv hm => hmail ⟨hv, hm⟩
          rw [isEmergencyDial_of_valid hecc hok hslot] at hagain
          cases hagain
    · cases hfirst : isEmergencyNumber env s (removeSeparatorsPhoneNumber accountNumber)
          extras.accountId with
      | true => exact hroom
      | false => exact (hpasses hfirst).2

end Emergency

/-- What a dial of a legal number sends to a stack that is there: its number, once, if it is saved
and admitted, and nothing otherwise. -/
theorem dialLegalNumber_sent (env : Env) (h : ServiceInv s) {accountNumber : Bytes}
    (hn : (removeSeparatorsPhoneNumber accountNumber).length ≤ kMaxNumberLen)
    (hstack : ∀ log c, (env.stack log c).isSome) (extras : DialExtras) :
    Post (CallControlManager.dialLegalNumber env accountNumber extras) s fun _ s' =>
      s'.sentDials = s.sentDials ++
        if (screenDial env accountNumber extras s).1.1 = .success ∧
            DialAdmitted env (savedDial env accountNumber extras s) then
          [removeSeparatorsPhoneNumber accountNumber]
        else [] := by
  have hq : Quiet s (screenDial env accountNumber extras s).2 := Moves.rel s
  have hbefore : (screenDial env accountNumber extras s).2.sentDials = s.sentDials :=
    congrArg (List.filterMap Mark.sentDial) hq.history
  rw [dialLegalNumber_eq]
  refine Post.bind (Q := fun x s₁ => (x, s₁) = screenDial env accountNumber extras s) rfl ?_
  rintro x s₁ hscreen
  -- a dial that a check refuses ends before its request is saved
  refine Post.ite (fun hne => Post.pure ?_) fun hok => ?_
  · rw [← hscreen] at hbefore ⊢
    rw [if_neg fun hsaved => hne hsaved.1, List.append_nil]
    exact hbefore
  have hok : (screenDial env accountNumber extras s).1.1 = .success := by
    rw [← hscreen]
    exact not_not.mp hok
  obtain ⟨hsaved, heq⟩ := savedDial_saved env h hn hok
  refine Post.bind (Q := fun _ s₂ => s₂ = savedDial env accountNumber extras s) ?_ ?_
  · unfold savedDial
    rw [← hscreen]
    rfl
  rintro _ _ rfl
  refine Post.congr heq (Post.mono (carrierDialProcess_outcome env hsaved) ?_)
  rintro ret s' hout
  have hbefore : (savedDial env accountNumber extras s).sentDials = s.sentDials := hbefore
  split at hout
  · next hadm =>
    rw [if_pos (by exact hstack _ _), hbefore] at hout
    rw [if_pos ⟨hok, hadm⟩]
    exact hout
  · next hadm =>
    rw [if_neg fun hboth => hadm hboth.2, List.append_nil]
    exact hout.2.1.trans hbefore

/-- **An emergency dial reaches the stack, once,** exactly if it meets `ReachesStack`. -/
theorem dialCall_emergency_iff (env : Env) (hs : Reachable s)
    (hroom : s.callObjectPtrList.length < miniMaxCallObjects)
    (hidle : ∀ p ∈ s.callObjectPtrList, (s.call p).isEcc = true → (s.call p).isSettingUp = false)
    {caller : Caller} (hsystem : caller.isSystemCaller = true) (hplace : caller.placeCall = true)
    {number : List UInt16} {accountNumber : Bytes}
    (hlegal : numberLegalityCheck (str16ToStr8 number) = .ok accountNumber)
    (hecc : ∀ log slotId, isValidSlotId slotId = true → env.answer log
      (.isEmergencyPhoneNumber (removeSeparatorsPhoneNumber accountNumber) slotId) = true)
    (hstack : ∀ log c, (env.stack log c).isSome) {extras : PacMap}
    (hex : (buildDialInfo extras).IsSupported) :
    (CallManagerService.dialCall env caller number extras s).2.sentDials =
        s.sentDials ++ [removeSeparatorsPhoneNumber accountNumber] ↔
      ReachesStack env s accountNumber (buildDialInfo extras) := by
  have hdial : CallManagerService.dialCall env caller number extras =
      CallControlManager.dialLegalNumber env accountNumber (buildDialInfo extras) := by
    have hlen : ¬number.length > CallManagerService.accountNumberMaxLength :=
      Nat.not_lt.mpr (length_le_of_legal hlegal)
    simp only [CallManagerService.dialCall, hlen, hsystem, hplace,
      CallControlManager.dialCall, hlegal]
    rfl
  have hsent : (CallManagerService.dialCall env caller number extras s).2.sentDials = _ :=
    hdial ▸ dialLegalNumber_sent env (reachable_inv hs) (length_removeSeparators_le hlegal) hstack
      (buildDialInfo extras)
  rw [hsent, ← reachesStack_iff hex hecc hidle hroom]
  split
  · next hboth => exact iff_of_true rfl hboth
  · next hnot => exact iff_of_false (by simp) hnot

/-- A video dial, everything else left at its default. -/
def videoExtras : PacMap
  | .videoState => some (.int 3)
  | _ => none

/-- A video dial of `112` next to an active call is turned away. -/
theorem dialCall_emergency_busy :
    ∃ s, Reachable s ∧ s.callObjectPtrList.length < miniMaxCallObjects ∧
      (∀ p ∈ s.callObjectPtrList, (s.call p).isEcc = true → (s.call p).isSettingUp = false) ∧
      numberLegalityCheck (str16ToStr8 [49, 49, 50]) = .ok [49, 49, 50] ∧
      (∀ log slotId, Env.obliging.answer log (.isEmergencyPhoneNumber [49, 49, 50] slotId) = true) ∧
      (∀ log c, (Env.obliging.stack log c).isSome) ∧
      (buildDialInfo videoExtras).IsSupported ∧
      (CallManagerService.dialCall .obliging ⟨true, true⟩ [49, 49, 50] videoExtras s).2.sentDials ≠
        s.sentDials ++ [removeSeparatorsPhoneNumber [49, 49, 50]] :=
  ⟨.run [(.obliging, .callReport (ringingReport 1)),
      (.obliging, .callReport { ringingReport 1 with state := 0 })],
    reachable_run _, by decide +kernel, by decide +kernel, by decide, fun _ _ => rfl,
    fun _ _ => rfl, ⟨by decide, by decide, by decide⟩, by decide +kernel⟩

/-- A stack without a SIM and a network, which knows `112` on the slots there are. -/
def Env.stranded : Env :=
  { Env.obliging with
    answer := fun _ => fun
      | .isEmergencyPhoneNumber number slotId => number = [49, 49, 50] ∧ isValidSlotId slotId = true
      | _ => false }

/-- A voice dial of `112` next to an active and a waiting call, without a SIM. -/
theorem dialCall_emergency_voice :
    (CallManagerService.dialCall .stranded ⟨true, true⟩ [49, 49, 50] (fun _ => none)
        (.run [(.obliging, .callReport (ringingReport 1)),
          (.obliging, .callReport { ringingReport 1 with state := 0 }),
          (.obliging, .callReport { ringingReport 2 with state := 5 })])).2.sentDials =
      [[49, 49, 50]] :=
  (dialCall_emergency_iff .stranded (reachable_run _)
    (by decide +kernel) (by decide +kernel) rfl rfl
    (by decide : numberLegalityCheck (str16ToStr8 [49, 49, 50]) = .ok [49, 49, 50])
    (fun _ slotId hslot => by simp [Env.stranded, hslot]; decide) (fun _ _ => rfl)
    ⟨by decide, by decide, by decide⟩).mpr
    ⟨by decide +kernel, by decide +kernel, by decide +kernel⟩

end CallManagerMini
