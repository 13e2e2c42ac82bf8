import CallManagerMini.CallPolicy

/-! # Requests

`CallRequestProcess`: the dial, which runs inside the caller's step, and the
control requests, which are posted to the main loop and run in a step of their
own.
-/

namespace CallManagerMini

/-! ## Dialing -/

/-- `SetDialingCallProcessing`. -/
def setDialingCallProcessing (env : Env) : Prog CallManager Unit := do
  let h ← Prog.gets fun s => s.helper
  Prog.when h.isDialingCallProcessing do
    removeEventHandlerTask
    let id ← postDelayed env .restoreDialingFlag
    Prog.forSome id fun id => modifyHelper fun h => { h with restoreTaskId := id }

/-- `CallRequestProcess::UpdateCallReportInfo`: the local report of a dial. -/
def updateCallReportInfo (env : Env) (info : DialParaInfo) (state : TelCallState) :
    Prog CallManager RetCode :=
  if info.number.length > kMaxNumberLen then pure .callErrNumberOutOfRange
  else
    handleCallReportInfo env
      { callType := info.callType
        accountId := info.accountId
        index := info.index
        state := state
        callMode := info.videoState
        originalCallType := info.originalCallType
        phoneOrWatch := info.phoneOrWatch
        phoneIndex := info.phoneIndex
        phoneNum := info.number }

/-- `CallRequestProcess::GetDialingCall`. -/
def getDialingCall (s : CallManager) : Option Ref :=
  (getOneCarrierCallObject s .create).or <|
    (getOneCarrierCallObject s .connecting).or (getOneCarrierCallObject s .dialing)

/-- `HandleDialFail`. -/
def handleDialFail (env : Env) : Prog CallManager RetCode := do
  let dialing ← Prog.gets getDialingCall
  match dialing with
  | none => pure .callErrCallState
  | some p => dealFailDial env p

/-- `CallRequestProcess::PackCellularCallInfo`. -/
def DialParaInfo.packCellularCallInfo (info : DialParaInfo) : CellularCallInfo :=
  { callId := info.callId
    accountId := info.accountId
    callType := info.callType
    videoState := info.videoState.toInt
    index := info.index
    slotId := info.accountId
    isRTT := info.isRTT
    phoneNum := info.number }

/-- `HandleStartDial`. -/
def handleStartDial (env : Env) (info : DialParaInfo) : Prog CallManager RetCode :=
  if info.number.length > kMaxNumberLen then pure .callErrNumberOutOfRange
  else do
    let ret ← sendCommand env (.dial info.packCellularCallInfo)
    if ret ≠ .success then do
      let handleRet ← handleDialFail env
      pure (if handleRet ≠ .success then handleRet else ret)
    else pure .success

/-- A call that is still being set up. -/
def CallBase.isSettingUp (c : CallBase) : Bool :=
  c.callRunningState = .create || c.callRunningState = .connecting || c.callRunningState = .dialing

/-- The calls `EccDialPolicy` hangs up. -/
def CallBase.eccHangsUp (c : CallBase) : Bool :=
  c.callType = .satellite || c.isSettingUp || c.callRunningState = .active ||
    c.callRunningState = .hold

/-- The calls `EccDialPolicy` rejects. -/
def CallBase.eccRejects (c : CallBase) : Bool :=
  c.callType ≠ .satellite && c.callRunningState = .ringing

/-- `EccDialPolicy`: make way for an emergency call, unless one is being set up. -/
def eccDialPolicy (env : Env) : Prog CallManager RetCode := do
  let calls ← Prog.gets fun s => (getCarrierCallList s).filterMap (getOneCallObject s)
  let busy ← Prog.gets fun s => calls.any fun p =>
    (s.call p).callType ≠ .satellite && (s.call p).isSettingUp && (s.call p).isEcc
  if busy then pure .callErrCallCountsExceedLimit
  else do
    let hangupList ← Prog.gets fun s => calls.filter fun p => (s.call p).eccHangsUp
    let rejectList ← Prog.gets fun s => calls.filter fun p => (s.call p).eccRejects
    Prog.forEach hangupList fun p => (hangUpCall env p).ignore
    Prog.forEach rejectList fun p => (rejectCall env p).ignore
    pure .success

/-- `HandleDialingInfo`, with `HandleEccCallForDsda`. -/
def handleDialingInfo (env : Env) (newPhoneNum : Bytes) (info : DialParaInfo) :
    Prog CallManager RetCode := do
  let isEcc ← ask env (.isEmergencyPhoneNumber newPhoneNum info.accountId)
  if isEcc then eccDialPolicy env
  else do
    let canDial ← Prog.gets isNewCallAllowedCreate
    pure (if !canDial then .callErrCallCountsExceedLimit else .success)

/-- What `CarrierDialProcess` does before it gives up. -/
def abandonDial (ret : RetCode) : Prog CallManager RetCode := do
  restoreDialingFlag false
  removeEventHandlerTask
  pure ret

/-- `CarrierDialProcess`. -/
def carrierDialProcess (env : Env) (info : DialParaInfo) : Prog CallManager RetCode := do
  let h ← Prog.gets fun s => s.helper
  if h.isDialingCallProcessing then pure .callErrCallCountsExceedLimit
  else do
    restoreDialingFlag true
    setDialingCallProcessing env
    let newPhoneNum := removeSeparatorsPhoneNumber info.number
    let ret ← handleDialingInfo env newPhoneNum info
    if ret ≠ .success then abandonDial ret
    else do
      let ret ← updateCallReportInfo env { info with number := newPhoneNum } .dialing
      if ret ≠ .success then abandonDial ret else handleStartDial env info

/-- `DialRequest`, with `HandleDialRequest`. -/
def dialRequest (env : Env) : Prog CallManager RetCode := do
  let info ← Prog.gets fun s => s.dialSrcInfo
  if !info.isDialing then pure .callErrIllegalCallOperation
  else if info.number.length > kMaxNumberLen then pure .callErrNumberOutOfRange
  else if info.dialType = .carrier ∨ info.dialType = .voiceMail then carrierDialProcess env info
  else pure .callErrFunctionNotSupported

/-! ## Control requests -/

/-- `AnswerRequest`. -/
def answerRequest (env : Env) (callId videoState : Int) (isRTT : Bool) :
    Prog CallManager Unit := do
  let call ← Prog.gets fun s => getOneCallObject s callId
  Prog.forSome call fun p => do
    modifyCall p fun c => { c with answerVideoState := videoState }
    let ret ← answerCall env p videoState isRTT
    Prog.when (ret = .success) (notifyIncomingCallAnswered p)

/-- `RejectRequest`. -/
def rejectRequest (env : Env) (callId : Int) (isSendSms : Bool) : Prog CallManager Unit := do
  let call ← Prog.gets fun s => getOneCallObject s callId
  Prog.forSome call fun p => do
    let ret ← rejectCall env p
    Prog.when (ret = .success) do
      let held ← Prog.gets fun s => getOneCallObjectByState s .hold
      Prog.forSome held fun h => modifyCall h fun c => { c with canUnHoldState := false }
      notifyIncomingCallRejected env p isSendSms

/-- `HangUpRequest`. -/
def hangUpRequest (env : Env) (callId : Int) : Prog CallManager Unit := do
  let call ← Prog.gets fun s => getOneCallObject s callId
  Prog.forSome call fun p => do
    let waitingCallNum ← Prog.gets fun s => getCallNum s .waiting
    let c ← getCall p
    let held ← Prog.gets fun s => isCallExistOfType s c.callType .holding
    let releasesActive := ((c.callState = .active ∧ held) ∨ c.conferenceState = .active) ∧
      waitingCallNum = 0
    Prog.when releasesActive (modifyCall p (CallBase.setPolicyFlag policyFlagHangUpActive))
    Prog.when (¬releasesActive ∧ c.conferenceState = .holding ∧ waitingCallNum = 0)
      (modifyCall p (CallBase.setPolicyFlag policyFlagHangUpHoldWait))
    (hangUpCall env p).ignore

/-- `HoldRequest`. -/
def holdRequest (env : Env) (callId : Int) : Prog CallManager Unit := do
  let call ← Prog.gets fun s => getOneCallObject s callId
  Prog.forSome call fun p => (holdCall env p).ignore

/-- `IsExistCallOtherSlot`: whether some carrier call of the table, if there are at
least two, is on another slot. -/
def isExistCallOtherSlot (s : CallManager) (slotId : Int) : Bool :=
  1 < (getCarrierCallList s).length &&
    (getCarrierCallList s).any fun otherCallId =>
      match getOneCallObject s otherCallId with
      | none => false
      | some p => (s.call p).slotId ≠ slotId

/-- `UnHoldRequest`. -/
def unHoldRequest (env : Env) (callId : Int) : Prog CallManager Unit := do
  let call ← Prog.gets fun s => getOneCallObject s callId
  Prog.forSome call fun p => do
    modifyCall p fun c => { c with canUnHoldState := true }
    let otherCall ← Prog.gets fun s => isExistCallOtherSlot s (s.call p).slotId
    Prog.when (!otherCall) (unHoldCall env p).ignore

/-- `SwitchRequest`. -/
def switchRequest (env : Env) (callId : Int) : Prog CallManager Unit := do
  let call ← Prog.gets fun s => getOneCallObject s callId
  Prog.forSome call fun p => (switchCall env p).ignore

/-- Run a posted request. -/
def runRequest (env : Env) : Request → Prog CallManager Unit
  | .answer callId videoState isRTT => answerRequest env callId videoState isRTT
  | .reject callId isSendSms => rejectRequest env callId isSendSms
  | .hangUp callId => hangUpRequest env callId
  | .hold callId => holdRequest env callId
  | .unHold callId => unHoldRequest env callId
  | .switch callId => switchRequest env callId

end CallManagerMini
