import CallManagerMini.CallStateListener

/-! # Call reports

`CallStatusManager`: what each reported call state does to the call table.  The
handlers stand in the order in which they call each other.  A handler that fails
a dial or replaces a pending one reports it through `HandleCallReportInfo` again,
always as `DISCONNECTED` or `DIALING`; here it calls that state's handler
(`dealFailDial_eq` and `refreshDialingStateByOtherState` say so).
-/

namespace CallManagerMini

/-- `INIT_INDEX`: the index of a dialed call the network has not numbered yet. -/
def initIndex : Int := 0

/-! ## Pending flags -/

def modifyHelper (f : CallRequestEventHandlerHelper → CallRequestEventHandlerHelper) :
    Prog CallManager Unit :=
  Prog.modify fun s => { s with helper := f s.helper }

/-- `SetPendingMo`. -/
def setPendingMo (pendingMo : Bool) (callId : Int) : Prog CallManager Unit :=
  modifyHelper fun h => { h with pendingMo := pendingMo, pendingMoCallId := callId }

/-- `SetPendingHangup`. -/
def setPendingHangup (pendingHangup : Bool) (callId : Int) : Prog CallManager Unit :=
  modifyHelper fun h => { h with pendingHangup := pendingHangup, pendingHangupCallId := callId }

/-- `HasPendingMo`. -/
def CallRequestEventHandlerHelper.hasPendingMo (h : CallRequestEventHandlerHelper)
    (callId : Int) : Bool := h.pendingMo && h.pendingMoCallId = callId

/-- `HasPendingHangup`. -/
def CallRequestEventHandlerHelper.hasPendingHangup (h : CallRequestEventHandlerHelper)
    (callId : Int) : Bool := h.pendingHangup && h.pendingHangupCallId = callId

/-- `RestoreDialingFlag`. -/
def restoreDialingFlag (isDialingCallProcessing : Bool) : Prog CallManager Unit :=
  modifyHelper fun h => { h with isDialingCallProcessing := isDialingCallProcessing }

/-- `RemoveEventHandlerTask`. -/
def removeEventHandlerTask : Prog CallManager Unit := do
  let h ← Prog.gets fun s => s.helper
  Prog.when (h.restoreTaskId ≠ 0) do
    removeAsyncTask h.restoreTaskId
    modifyHelper fun h => { h with restoreTaskId := 0 }

/-- `RemovePendingHangupProtectTask`. -/
def removePendingHangupProtectTask : Prog CallManager Unit := do
  let id ← Prog.gets fun s => s.pendingHangupTaskId
  Prog.when (id ≠ 0) do
    removeAsyncTask id
    Prog.modify fun s => { s with pendingHangupTaskId := 0 }

/-- `ClearPendingState`. -/
def clearPendingState (env : Env) (p : Ref) : Prog CallManager Unit := do
  let c ← getCall p
  let h ← Prog.gets fun s => s.helper
  Prog.when (h.hasPendingMo c.callId) (setPendingMo false (-1))
  Prog.when (h.hasPendingHangup c.callId) do
    Prog.when (c.callRunningState ≠ .ended) (hangUpCall env p).ignore
    setPendingHangup false (-1)
    removePendingHangupProtectTask

/-! ## State changes -/

/-- `UpdateCallState`.  The object's state is written twice, once directly and
once through the table; the broadcast follows either way. -/
def updateCallState (env : Env) (p : Ref) (nextState : TelCallState) :
    Prog CallManager RetCode := do
  let c ← getCall p
  let ret ← setTelCallState env p nextState
  updateOneCallObjectByCallId env c.callId nextState
  if ret ≠ .success ∧ ret ≠ .callErrNotNewState then pure .errLocalPtrNull
  else do
    notifyCallStateUpdated env p c.callState nextState
    pure .success

/-! ## New call objects -/

/-- `PackParaInfo`: an outgoing call starts from the saved dial. -/
def packParaInfo (info : CallDetailInfo) (dir : CallDirection) :
    Prog CallManager (DialParaInfo × DialExtras) := do
  let saved : DialParaInfo × DialExtras ← Prog.gets fun s =>
    if dir = .outgoing then (s.dialSrcInfo, s.extras) else ({}, {})
  let callId ← getNewCallId
  pure ({ saved.1 with
    number := info.phoneNum
    callId := callId
    index := info.index
    videoState := info.callMode
    accountId := info.accountId
    callType := info.callType
    callState := info.state
    crsType := info.crsType
    originalCallType := info.originalCallType
    phoneOrWatch := info.phoneOrWatch
    newCallUseBox := info.newCallUseBox
    phoneIndex := info.phoneIndex }, saved.2)

/-- `CreateNewCall`: `none` for a call type the build does not support. -/
def createNewCall (env : Env) (info : CallDetailInfo) (dir : CallDirection) :
    Prog CallManager (Option Ref) := do
  let para ← packParaInfo info dir
  if info.callType ≠ .cs ∧ info.callType ≠ .ims then pure none
  else do
    let dialScene := DialScene.ofInt para.2.dialScene
    let now ← Prog.gets fun s => env.time s.log
    let p ← newCall
      { CallBase.ofParaInfo para.1 dir dialScene with
        isEccContact := dialScene = .emergency
        originalCallType := info.originalCallType
        callCreateTime := max now 0 }
    pure (some p)

/-- What `RefreshCall` copies from the old object to its replacement. -/
def copyToRefreshed (oldCall newCall : CallBase) : CallBase :=
  { newCall with
    callRunningState := oldCall.callRunningState
    conferenceState := oldCall.conferenceState
    startTime := oldCall.startTime
    policyFlag := newCall.policyFlag ||| oldCall.policyFlag
    callBeginTime := oldCall.callBeginTime
    callCreateTime := oldCall.callCreateTime
    callEndTime := oldCall.callEndTime
    ringBeginTime := oldCall.ringBeginTime
    ringEndTime := oldCall.ringEndTime
    answerType := oldCall.answerType }

/-- `RefreshCall`: replace the object by one of the reported call type.  The old
object leaves the table first; if the table then refuses the replacement, the old
object is added again, through the same admission check. -/
def refreshCall (env : Env) (p : Ref) (info : CallDetailInfo) : Prog CallManager Ref := do
  let oldCall ← getCall p
  let created ← createNewCall env info oldCall.direction
  match created with
  | none => pure p
  | some q => do
    deleteOneCallObject oldCall.callId
    modifyCall q fun c => { c with callId := oldCall.callId }
    let ret ← addOneCallObject q
    if ret ≠ .success then do
      let _ ← addOneCallObject p
      pure p
    else do
      modifyCall q (copyToRefreshed oldCall)
      Prog.when (oldCall.callType = .ims ∧ info.callType = .cs ∧ info.mpty = 1) <|
        Prog.modify fun s =>
          { s with csConference := s.csConference.updateConferenceId oldCall.callId }
      let _ ← setTelCallState env q oldCall.callState
      modifyCall q fun c => { c with imsDomain := oldCall.imsDomain }
      pure q

/-- `RefreshCallIfNecessary`. -/
def refreshCallIfNecessary (env : Env) (p : Ref) (info : CallDetailInfo) :
    Prog CallManager Ref := do
  modifyCall p fun c => { c with newCallUseBox := info.newCallUseBox }
  modifyCall p fun c => if c.callType = .ims then { c with videoState := info.callMode } else c
  modifyCall p fun c => { c with imsDomain := info.imsDomain }
  modifyCall p fun c => if c.callType = .ims then { c with crsType := info.crsType } else c
  let c ← getCall p
  if c.callType = info.callType then pure p else refreshCall env p info

/-! ## Dialing -/

/-- `UpdateDialingCallInfo`: a known call is refreshed; otherwise the first call
without an index, of whatever slot, becomes the reported one. -/
def updateDialingCallInfo (env : Env) (info : CallDetailInfo) : Prog CallManager RetCode := do
  let known ← Prog.gets fun s =>
    getOneCallObjectByIndexSlotIdAndCallType s info.index info.accountId
  match known with
  | some p => do
    let _ ← refreshCallIfNecessary env p info
    pure .success
  | none => do
    let pending ← Prog.gets fun s => getOneCallObjectByIndex s initIndex
    match pending with
    | none => pure .errLocalPtrNull
    | some p => do
      let oriNum := (← getCall p).accountNumber
      let p ← refreshCallIfNecessary env p info
      modifyCall p fun c => { c with index := info.index }
      modifyCall p fun c => { c with slotId := info.accountId }
      let _ ← setTelCallState env p info.state
      modifyCall p fun c => { c with videoState := info.callMode }
      modifyCall p fun c => { c with callType := info.callType }
      modifyCall p fun c => { c with accountNumber := oriNum }
      modifyCall p fun c => { c with imsDomain := info.imsDomain }
      clearPendingState env p
      pure .success

/-- `UpdateDialingHandle`: whether the report is about a call of its slot that is
still without an index, or that already has this one. -/
def updateDialingHandle (s : CallManager) (info : CallDetailInfo) : Bool :=
  (getOneCallObjectByIndexSlotIdAndCallType s initIndex info.accountId).isSome ||
    (getOneCallObjectByIndexSlotIdAndCallType s info.index info.accountId).isSome

/-- The part of `DialingHandle` that adds a call object for the report. -/
def addDialingCall (env : Env) (info : CallDetailInfo) : Prog CallManager RetCode := do
  let created ← createNewCall env info .outgoing
  match created with
  | none => pure .errLocalPtrNull
  | some p => do
    let ret ← addOneCallObject p
    if ret ≠ .success then pure ret
    else do
      Prog.when (info.index = initIndex) do
        setPendingMo true (← getCall p).callId
        modifyCall p fun c => { c with phoneOrWatch := 1 }
      restoreDialingFlag false
      removeEventHandlerTask
      let ret ← dialingProcess p
      if ret ≠ .success then pure ret
      else do
        notifyNewCallCreated p
        updateCallState env p .dialing

/-- `DialingHandle`. -/
def dialingHandle (env : Env) (info : CallDetailInfo) : Prog CallManager RetCode := do
  let update ← Prog.gets fun s => 0 < info.index && updateDialingHandle s info
  if update then updateDialingCallInfo env info else addDialingCall env info

/-- `RefreshDialingStateByOtherState`: a report for an unknown index is taken for
the first report of a call that has no index yet.  `none` is its `false`. -/
def refreshDialingStateByOtherState (env : Env) (info : CallDetailInfo) :
    Prog CallManager (Option Ref) := do
  let initCall ← Prog.gets fun s => getOneCallObjectByIndex s initIndex
  match initCall with
  | none => pure none
  | some _ => do
    let _ ← dialingHandle env { info with state := .dialing }
    Prog.gets fun s => getOneCallObjectByIndexSlotIdAndCallType s info.index info.accountId

/-- The call a report is about: the one at its index and slot, or else the one
`RefreshDialingStateByOtherState` makes of a pending dial. -/
def reportedCall (env : Env) (info : CallDetailInfo) : Prog CallManager (Option Ref) := do
  let found ← Prog.gets fun s =>
    getOneCallObjectByIndexSlotIdAndCallType s info.index info.accountId
  match found with
  | some p => pure (some p)
  | none => refreshDialingStateByOtherState env info

/-! ## Active, holding, alerting -/

/-- `GetConferenceCallList`. -/
def getConferenceCallList (s : CallManager) (slotId : Int) : List Ref :=
  if slotId ≥ miniSlotCount ∨ slotId < 0 then []
  else (s.tmpCallDetailsInfo slotId).filterMap fun it =>
    if it.mpty = 1 then getOneCallObjectByIndexAndSlotId s it.index it.accountId else none

/-- `SetConferenceCall`. -/
def setConferenceCall (env : Env) (conferenceCallList : List Ref) : Prog CallManager Unit :=
  Prog.forEach conferenceCallList fun p => do
    setTelConferenceState p .idle
    let c ← getCall p
    Prog.when (c.conferenceState ≠ .active) do
      let _ ← launchConference env p
      let c ← getCall p
      (updateCallState env p c.callState).ignore

/-- The video history of a call that became active, as 32-bit flags. -/
def orVideoState (videoStateHistory videoState : Int) : Int :=
  (BitVec.ofInt 32 videoStateHistory ||| BitVec.ofInt 32 videoState).toInt

/-- `SetOriginalCallTypeForActiveState`. -/
def setOriginalCallTypeForActiveState (p : Ref) : Prog CallManager Unit :=
  modifyCall p fun c =>
    if c.callState = .alerting ∨ c.callState = .incoming ∨ c.callState = .waiting then
      { c with originalCallType := c.videoState.toInt }
    else if c.callState = .active ∨ c.callState = .holding then
      { c with originalCallType := orVideoState c.originalCallType c.videoState.toInt }
    else c

/-- `ActiveHandle`. -/
def activeHandle (env : Env) (info : CallDetailInfo) : Prog CallManager RetCode := do
  let found ← reportedCall env info
  match found with
  | none => pure .errLocalPtrNull
  | some p => do
    clearPendingState env p
    let p ← refreshCallIfNecessary env p info
    setOriginalCallTypeForActiveState p
    let conferenceCallList ← Prog.gets fun s => getConferenceCallList s (s.call p).slotId
    let isConference := info.mpty = 1 ∧ 1 < conferenceCallList.length
    Prog.when isConference (setConferenceCall env conferenceCallList)
    Prog.when (¬isConference) (exitConference env p).ignore
    let ret ← updateCallState env p .active
    if ret ≠ .success then pure ret
    else do
      let held ← Prog.gets fun s => getOneCallObjectByState s .hold
      Prog.forSome held fun h => modifyCall h fun c => { c with canSwitchCallState := true }
      pure ret

/-- `HoldingHandle`. -/
def holdingHandle (env : Env) (info : CallDetailInfo) : Prog CallManager RetCode := do
  let found ← Prog.gets fun s =>
    getOneCallObjectByIndexSlotIdAndCallType s info.index info.accountId
  match found with
  | none => pure .errLocalPtrNull
  | some p => do
    let p ← refreshCallIfNecessary env p info
    Prog.when (info.mpty = 1) (holdConference env p).ignore
    updateCallState env p .holding

/-- `AlertHandle`. -/
def alertHandle (env : Env) (info : CallDetailInfo) : Prog CallManager RetCode := do
  let found ← reportedCall env info
  match found with
  | none => pure .errLocalPtrNull
  | some p => do
    clearPendingState env p
    let c ← getCall p
    if c.callState = .disconnecting then pure .callErrCallStateMismatchOperation
    else do
      let p ← refreshCallIfNecessary env p info
      updateCallState env p .alerting

/-! ## Disconnecting and disconnected -/

/-- `SetOriginalCallTypeForDisconnectState`. -/
def setOriginalCallTypeForDisconnectState (p : Ref) : Prog CallManager Unit :=
  modifyCall p fun c =>
    if c.callState = .dialing ∨ c.callState = .alerting ∨
        ((c.callState = .incoming ∨ c.callState = .waiting) ∧ c.answerType ≠ .reject) then
      { c with originalCallType := VideoStateType.voice.toInt }
    else c

/-- `DisconnectingHandle`. -/
def disconnectingHandle (env : Env) (info : CallDetailInfo) : Prog CallManager RetCode := do
  let found ← Prog.gets fun s =>
    getOneCallObjectByIndexSlotIdAndCallType s info.index info.accountId
  match found with
  | none => pure .errLocalPtrNull
  | some p => do
    let p ← refreshCallIfNecessary env p info
    setOriginalCallTypeForDisconnectState p
    updateCallState env p .disconnecting

/-- `tolower` in the C locale. -/
def toLower (b : UInt8) : UInt8 := if 65 ≤ b ∧ b ≤ 90 then b + 32 else b

/-- `"elsewhere"`. -/
def elsewhere : Bytes := [101, 108, 115, 101, 119, 104, 101, 114, 101]

/-- `RefreshCallDisconnectReason`. -/
def refreshCallDisconnectReason (p : Ref) (reason : Int) (message : Bytes) :
    Prog CallManager Unit :=
  modifyCall p fun c =>
    if reason = disconnectedReasonCsCallAnsweredElsewher then
      if c.callType = .cs then { c with answerType := .answeredElsewher } else c
    else if reason = disconnectedReasonAnsweredElsewher then
      if (message.map toLower).tails.any elsewhere.isPrefixOf then
        { c with answerType := .answeredElsewher }
      else c
    else c

/-- `IsCanUnHold`, where `size` is the number of members of the call's conference. -/
def isCanUnHold (s : CallManager) (size : Nat) : Bool :=
  getCallNum s .answered = 0 && getCallNum s .incoming = 0 && (size = 0 || size = 1) &&
    getCallNum s .active = 0 && getCallNum s .waiting = 0 && getCallNum s .alerting = 0

/-- `HandleHoldCallOrAutoAnswerCall`: the held call may resume, and the
disconnected call leaves the table. -/
def handleHoldCallOrAutoAnswerCall (env : Env) (p : Ref) (callIdList : List Int)
    (previousState : CallRunningState) (priorState : TelCallState) : Prog CallManager Unit := do
  let canUnHold ← Prog.gets fun s => isCanUnHold s callIdList.length
  let held ← Prog.gets fun s => getOneCallObjectByState s .hold
  let c ← getCall p
  Prog.forSome held fun h => do
    let holdCall ← getCall h
    Prog.when (previousState ≠ .hold ∧ previousState ≠ .active ∧ priorState = .disconnecting ∧
      canUnHold ∧ holdCall.canUnHoldState ∧ holdCall.slotId = c.slotId) (unHoldCall env h).ignore
  deleteOneCallObject c.callId

/-- The only call of a conference that has just one left. -/
def leftOneConferenceCall : List Ref → Option Ref
  | [left] => some left
  | _ => none

/-- `DisconnectedHandle` once the call is known. -/
def disconnectCall (env : Env) (p : Ref) (info : CallDetailInfo) : Prog CallManager RetCode := do
  let p ← refreshCallIfNecessary env p info
  refreshCallDisconnectReason p info.reason info.message
  clearPendingState env p
  setOriginalCallTypeForDisconnectState p
  let callIdList ← getSubCallIdList env p
  let previousState := (← getCall p).callRunningState
  let _ ← exitConference env p
  let priorState := (← getCall p).callState
  let _ ← updateCallState env p .disconnected
  handleHoldCallOrAutoAnswerCall env p callIdList previousState priorState
  let conferenceCallList ← Prog.gets fun s => getConferenceCallList s (s.call p).slotId
  Prog.forSome (leftOneConferenceCall conferenceCallList) fun left => do
    let c ← getCall left
    Prog.when (c.conferenceState ≠ .idle) do
      setTelConferenceState left .idle
      let c ← getCall left
      (updateCallState env left c.callState).ignore
  pure .success

/-- `DisconnectedHandle`. -/
def disconnectedHandle (env : Env) (info : CallDetailInfo) : Prog CallManager RetCode := do
  let found ← reportedCall env info
  match found with
  | none => pure .errLocalPtrNull
  | some p => disconnectCall env p info

/-- The report `ReportCallDisconnected` makes up for a call object. -/
def CallBase.disconnectedInfo (c : CallBase) : CallDetailInfo :=
  { callType := c.callType
    accountId := c.slotId
    index := c.index
    state := .disconnected
    callMode := c.videoState
    phoneNum := c.accountNumber }

/-- `DealFailDial`, which is `ReportCallDisconnected`: the call is reported
disconnected, and found again by its index and slot. -/
def dealFailDial (env : Env) (p : Ref) : Prog CallManager RetCode := do
  let c ← getCall p
  if c.accountNumber.length > kMaxNumberLen then pure .callErrNumberOutOfRange
  else disconnectedHandle env c.disconnectedInfo

/-! ## Incoming calls -/

/-- `RefreshOldCall`: the code it returns, and whether the call is an old one. -/
def refreshOldCall (env : Env) (info : CallDetailInfo) : Prog CallManager (RetCode × Bool) := do
  let initCall ← Prog.gets fun s => getOneCallObjectByIndex s initIndex
  Prog.forSome initCall fun p => (dealFailDial env p).ignore
  let found ← Prog.gets fun s =>
    getOneCallObjectByIndexSlotIdAndCallType s info.index info.accountId
  match found with
  | none => pure (.success, false)
  | some p => do
    let c ← getCall p
    if c.callType ≠ info.callType ∨ c.callState ≠ info.state ∨ c.videoState ≠ info.callMode then do
      let q ← refreshCallIfNecessary env p info
      if c.callType ≠ info.callType ∨ c.videoState ≠ info.callMode then do
        let ret ← updateCallState env q info.state
        pure (ret, true)
      else pure (.success, true)
    else pure (.success, true)

/-- `HandleRejectCall`: a call that is not in the table is turned away. -/
def handleRejectCall (env : Env) (p : Ref) : Prog CallManager RetCode := do
  let ret ← setTelCallState env p .incoming
  if ret ≠ .success ∧ ret ≠ .callErrNotNewState then pure ret else rejectCall env p

/-- `FilterResultsDispose`. -/
def filterResultsDispose (env : Env) (p : Ref) : Prog CallManager RetCode := do
  let full ← Prog.gets fun s => hasRingingMaximum s || hasDialingMaximum s
  if full then do
    modifyCall p fun c => { c with isApCauseReported := true }
    hangUpCall env p
  else do
    incomingCallBase p
    notifyNewCallCreated p
    pure .success

/-- `FinalizeIncomingState`. -/
def finalizeIncomingState (env : Env) (p : Ref) (nextState : TelCallState) :
    Prog CallManager RetCode := do
  let ret ← updateCallState env p nextState
  if ret ≠ .success then pure ret else filterResultsDispose env p

/-- `IncomingHandle`, and `WaitingHandle`. -/
def incomingHandle (env : Env) (info : CallDetailInfo) : Prog CallManager RetCode := do
  let old ← refreshOldCall env info
  if old.2 ∨ old.1 ≠ .success then pure old.1
  else do
    let created ← createNewCall env info .incoming
    match created with
    | none => pure .callErrCallObjectIsNull
    | some p => do
      let ret ← addOneCallObject p
      if ret ≠ .success then do
        let _ ← handleRejectCall env p
        pure ret
      else do
        notifyNewCallCreated p
        finalizeIncomingState env p info.state

/-! ## Reports -/

/-- `HandleCallReportInfo`. -/
def handleCallReportInfo (env : Env) (info : CallDetailInfo) : Prog CallManager RetCode :=
  match info.state with
  | .active => activeHandle env info
  | .holding => holdingHandle env info
  | .dialing => dialingHandle env info
  | .alerting => alertHandle env info
  | .incoming => incomingHandle env info
  | .waiting => incomingHandle env info
  | .disconnected => disconnectedHandle env info
  | .disconnecting => disconnectingHandle env info
  | _ => pure .errFail

/-- `IsValidSlotId`. -/
def isValidSlotId (slotId : Int) : Bool := 0 ≤ slotId && slotId < miniSlotCount

/-- The test of `HandleCallsReportInfo` for an entry that the recorded list has
under the same index. -/
def hasChanged (it it1 : CallDetailInfo) : Bool :=
  it.state ≠ it1.state || it.mpty ≠ it1.mpty || it.state = .alerting ||
    it.callMode ≠ it1.callMode || it.callType ≠ it1.callType

/-- `UpdateCallDetailsInfo`. -/
def updateCallDetailsInfo (slotId : Int) (callVec : List CallDetailInfo) :
    Prog CallManager Unit := Prog.modify fun s =>
  let recorded := callVec.filter fun i => i.state ≠ .disconnected
  { s with
    callDetailsInfo := Function.update s.callDetailsInfo slotId recorded
    tmpCallDetailsInfo :=
      if recorded.isEmpty then Function.update s.tmpCallDetailsInfo slotId []
      else s.tmpCallDetailsInfo }

/-- `HandleCallsReportInfo`. -/
def handleCallsReportInfo (env : Env) (slotId : Int) (callVec : List CallDetailInfo) :
    Prog CallManager RetCode :=
  if !isValidSlotId slotId then pure .callErrInvalidSlotId
  else do
    Prog.modify fun s =>
      { s with tmpCallDetailsInfo := Function.update s.tmpCallDetailsInfo slotId callVec }
    let recorded ← Prog.gets fun s => s.callDetailsInfo slotId
    -- call state changes, incoming and outgoing calls
    Prog.forEach callVec fun it =>
      match recorded.find? fun it1 => it.index = it1.index with
      | some it1 => Prog.when (hasChanged it it1) (handleCallReportInfo env it).ignore
      | none => (handleCallReportInfo env it).ignore
    -- the calls that are gone
    Prog.forEach recorded fun it2 =>
      Prog.when (!callVec.any fun it3 => it2.index = it3.index)
        (handleCallReportInfo env { it2 with state := .disconnected }).ignore
    updateCallDetailsInfo slotId callVec
    pure .success

/-- `mEventIdTransferMap_`. -/
def eventIdTransfer : RequestResultEventId → Option CallAbilityEventId
  | .dialNoCarrier => some .dialNoCarrier
  | .holdSendFailed => some .holdCallFailed
  | .swapSendFailed => some .swapCallFailed
  | .combineSendFailed => some .combineCallFailed
  | .splitSendFailed => some .splitCallFailed
  | .other _ => none

/-- `HandleEventResultReportInfo`, for an event the guard let through. -/
def handleEventResultReportInfo (env : Env) (eventId : RequestResultEventId) :
    Prog CallManager RetCode := do
  let dialing ← Prog.gets fun s => getOneCallObjectByState s .dialing
  Prog.forSome dialing fun p => (dealFailDial env p).ignore
  match eventIdTransfer eventId with
  | none => pure .success
  | some .dialNoCarrier => do
    let number ← Prog.gets fun s => s.dialSrcInfo.number
    if number.length > kMaxNumberLen then pure .callErrNumberOutOfRange
    else do
      emit (.callEventUpdated .dialNoCarrier number)
      pure .success
  | some .combineCallFailed => do
    let active ← Prog.gets fun s => getOneCallObjectByState s .active
    Prog.forSome active fun p => handleCombineConferenceFailEvent env p
    emit (.callEventUpdated .combineCallFailed [])
    pure .success
  | some id => do
    emit (.callEventUpdated id [])
    pure .success

/-- `HandleDisconnectedCause`. -/
def handleDisconnectedCause (reason : Int) : Prog CallManager RetCode := do
  emit (.callDestroyed reason)
  pure .success

end CallManagerMini
