import CallManagerMini.CallNumberUtils
import CallManagerMini.CallStatusManager

/-! # Admission policies

`CallPolicy`: what may be dialed, and which call may be answered, rejected, hung
up, held, resumed or switched.  The stack of this build never enables video call
waiting or carrier video, so `GetVideoCallWaiting` and `GetCarrierVtConfig` leave
their flags `false`; no MDM policy disables dialing.
-/

namespace CallManagerMini

/-! ## Dialing -/

/-- `CheckDialType`. -/
def checkDialType (dialType : DialType) : RetCode :=
  match dialType with
  | .carrier | .voiceMail => .success
  | .ott | .bluetooth => .callErrFunctionNotSupported
  | .invalid => .errArgumentInvalid

/-- `SelectAccountIdForCarrier`: a carrier dial on an invalid slot goes to slot 0. -/
def selectAccountIdForCarrier (dialType : DialType) (extras : DialExtras) : DialExtras :=
  if dialType = .carrier ∧ !isValidSlotId extras.accountId then { extras with accountId := 0 }
  else extras

/-- `ValidateCallType`. -/
def validateCallType (callType : CallType) : RetCode :=
  match callType with
  | .cs | .ims => .success
  | .ott | .satellite | .bluetooth => .callErrFunctionNotSupported
  | .errCall | .voip => .errArgumentInvalid

/-- `ValidateDialScene`. -/
def validateDialScene (dialScene : Int) : RetCode :=
  if dialScene = DialScene.normal.toInt ∨ dialScene = DialScene.privileged.toInt ∨
      dialScene = DialScene.emergency.toInt then .success
  else .errArgumentInvalid

/-- `ValidateVideoState`. -/
def validateVideoState (videoState : Int) : RetCode :=
  if videoState = VideoStateType.voice.toInt ∨ videoState = VideoStateType.video.toInt then .success
  else .errArgumentInvalid

/-- `HasNormalCall`; `GetAirplaneMode` is not supported and never reports airplane
mode. -/
def hasNormalCall (env : Env) (isEcc : Bool) (slotId : Int) : Prog CallManager RetCode :=
  if isEcc then pure .success
  else do
    let hasSimCard ← ask env (.hasSimCard slotId)
    if !hasSimCard then pure .errNoSimCard
    else do
      let inService ← ask env (.isNetworkInService slotId)
      pure (if !inService then .errNetworkNotInService else .success)

/-- `DialPolicy`: its code, and the extras with the account it selected. -/
def dialPolicy (env : Env) (extras : DialExtras) (isEcc : Bool) :
    Prog CallManager (RetCode × DialExtras) := do
  let hasEccCall ← Prog.gets hasEmergencyCall
  let dialType := DialType.ofInt extras.dialType
  if checkDialType dialType ≠ .success then pure (checkDialType dialType, extras)
  else do
    let extras := selectAccountIdForCarrier dialType extras
    let callType := CallType.ofInt extras.callType
    if validateCallType callType ≠ .success then pure (validateCallType callType, extras)
    else if validateDialScene extras.dialScene ≠ .success then
      pure (validateDialScene extras.dialScene, extras)
    else if validateVideoState extras.videoState ≠ .success then
      pure (validateVideoState extras.videoState, extras)
    else if !isEcc && hasEccCall then pure (.callErrCallCountsExceedLimit, extras)
    else do
      let ret ← hasNormalCall env isEcc extras.accountId
      pure (ret, extras)

/-- `CanDialMulityCall`. -/
def canDialMulityCall (s : CallManager) (extras : DialExtras) (isEcc : Bool) : RetCode :=
  if extras.videoState = VideoStateType.video.toInt && hasCellularCallExist s
    then .callErrDialIsBusy
  else if !isEcc && extras.videoState = VideoStateType.voice.toInt && hasVideoCall s then
    .callErrDialIsBusy
  else .success

/-- `CanDial`. -/
def canDial (env : Env) (extras : DialExtras) (isEcc : Bool) :
    Prog CallManager (RetCode × DialExtras) := do
  let policy ← dialPolicy env extras isEcc
  if policy.1 ≠ .success then pure policy
  else do
    let ret ← Prog.gets fun s => canDialMulityCall s policy.2 isEcc
    pure (ret, policy.2)

/-- `IsSupportVideoCall`: the carrier's video flag is never set. -/
def isSupportVideoCall (extras : DialExtras) : Bool :=
  let vtEnabled := false
  vtEnabled && extras.dialScene = DialScene.normal.toInt

/-- `SetCallTypeExtras`. -/
def setCallTypeExtras (extras : DialExtras) : DialExtras :=
  let dialType := DialType.ofInt extras.dialType
  if dialType = .carrier ∨ dialType = .voiceMail then
    let extras :=
      if !isSupportVideoCall extras then { extras with videoState := VideoStateType.voice.toInt }
      else extras
    if extras.videoState = VideoStateType.video.toInt then { extras with callType := 1 } else extras
  else extras

/-! ## Control operations -/

section Policies
variable (s : CallManager) (callId : Int)

/-- The test `AnswerCallPolicy` and `RejectCallPolicy` share. -/
def ringingCallPolicy : RetCode :=
  if !isCallExist s callId then .errArgumentInvalid
  else if getCallState s callId ≠ .incoming ∧ getCallState s callId ≠ .waiting then
    .callErrIllegalCallOperation
  else .success

/-- `AnswerCallPolicy`. -/
def answerCallPolicy (videoState : Int) : RetCode :=
  if videoState ≠ VideoStateType.voice.toInt ∧ videoState ≠ VideoStateType.video.toInt then
    .errArgumentInvalid
  else ringingCallPolicy s callId

/-- `RejectCallPolicy`. -/
def rejectCallPolicy : RetCode := ringingCallPolicy s callId

/-- `HoldCallPolicy`. -/
def holdCallPolicy : RetCode :=
  match getOneCallObject s callId with
  | none => .errArgumentInvalid
  | some p =>
    if (s.call p).callRunningState ≠ .active then .callErrCallIsNotActivated else .success

/-- `UnHoldCallPolicy`. -/
def unHoldCallPolicy : RetCode :=
  match getOneCallObject s callId with
  | none => .errArgumentInvalid
  | some p =>
    if (s.call p).callRunningState ≠ .hold then .callErrCallIsNotOnHolding else .success

/-- `HangUpPolicy`. -/
def hangUpPolicy : RetCode :=
  if !isCallExist s callId then .errArgumentInvalid
  else
    let state := getCallState s callId
    if state = .idle ∨ state = .disconnecting ∨ state = .disconnected then
      .callErrIllegalCallOperation
    else .success

/-- `SwitchCallPolicy`. -/
def switchCallPolicy : RetCode :=
  if !isCallExist s callId then .errArgumentInvalid
  else if (getCarrierCallList s).length < 2 then .callErrPhoneCallsTooFew
  else if getCallState s callId ≠ .holding ∨ isCallExistInState s .dialing ∨
      isCallExistInState s .alerting then .callErrIllegalCallOperation
  else .success

end Policies

end CallManagerMini
