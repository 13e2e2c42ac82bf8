import CallManagerMini.CallRequestProcess

/-! # The control operations

`CallControlManager`: what an API call does on the main loop before it returns,
and the delayed task that guards a pending hang-up.
-/

namespace CallManagerMini

namespace CallControlManager

/-! ## Dialing -/

/-- `PackageDialInformation`: save the dial.  The fields it does not name keep the
values of the dial before. -/
def packageDialInformation (extras : DialExtras) (accountNumber : Bytes) (isEcc : Bool) :
    Prog CallManager Unit := Prog.modify fun s =>
  { s with
    dialSrcInfo :=
      { s.dialSrcInfo with
        callId := errId
        number := accountNumber
        isDialing := true
        isEcc := isEcc
        isRTT := extras.isRTT
        callType := CallType.ofInt extras.callType
        accountId := extras.accountId
        dialType := DialType.ofInt extras.dialType
        videoState := VideoStateType.ofInt extras.videoState
        originalCallType := extras.videoState
        phoneIndex := extras.phoneIndex }
    extras := extras }

/-- `DialCall` once the number is legal. -/
def dialLegalNumber (env : Env) (accountNumber : Bytes) (extras : DialExtras) :
    Prog CallManager RetCode := do
  let newPhoneNum := removeSeparatorsPhoneNumber accountNumber
  let isEcc ← ask env (.isEmergencyPhoneNumber newPhoneNum extras.accountId)
  let extras := if isEcc then { extras with dialScene := DialScene.emergency.toInt } else extras
  let policy ← canDial env extras isEcc
  if policy.1 ≠ .success then pure policy.1
  else do
    let busy ← Prog.gets hasNewCall
    if !isEcc && busy then pure .callErrCallCountsExceedLimit
    else do
      packageDialInformation (setCallTypeExtras policy.2) newPhoneNum isEcc
      dialRequest env

/-- `DialCall`. -/
def dialCall (env : Env) (number : List UInt16) (extras : DialExtras) :
    Prog CallManager RetCode :=
  match numberLegalityCheck (str16ToStr8 number) with
  | .error ret => pure ret
  | .ok accountNumber => dialLegalNumber env accountNumber extras

/-! ## Answer and reject -/

/-- `GetRingCall`. -/
def getRingCall (s : CallManager) (callId : Int) : Option Ref :=
  match getOneCallObjectByState s .ringing with
  | none => none
  | some p => getOneCallObject s (if callId = invalidCallId then (s.call p).callId else callId)

/-- `AnswerCall`: the answer is broadcast before the policy is asked. -/
def answerCall (env : Env) (callId videoState : Int) (isRTT : Bool) : Prog CallManager RetCode := do
  let call ← Prog.gets fun s => getRingCall s callId
  match call with
  | none => pure .errLocalPtrNull
  | some p => do
    let ringCallId := (← getCall p).callId
    modifyCall p fun c => { c with isAnswered := true }
    notifyCallStateUpdated env p .incoming .answered
    let ret ← Prog.gets fun s => answerCallPolicy s ringCallId videoState
    if ret ≠ .success then pure ret
    else postRequest env (.answer ringCallId videoState isRTT)

/-- `RejectCall`. -/
def rejectCall (env : Env) (callId : Int) (rejectWithMessage : Bool) :
    Prog CallManager RetCode := do
  let call ← Prog.gets fun s => getOneCallObjectByState s .ringing
  match call with
  | none => pure .errLocalPtrNull
  | some p => do
    let c ← getCall p
    let callId := if callId = invalidCallId then c.callId else callId
    let ret ← Prog.gets fun s => rejectCallPolicy s callId
    if ret ≠ .success then pure ret
    else postRequest env (.reject callId rejectWithMessage)

/-! ## Hang up -/

/-- `PostPendingHangupProtectTask`. -/
def postPendingHangupProtectTask (env : Env) (callId : Int) : Prog CallManager Unit := do
  let taskId ← Prog.gets fun s => s.pendingHangupTaskId
  Prog.when (taskId = 0) do
    let id ← postDelayed env (.pendingHangupProtect callId)
    Prog.forSome id fun id => Prog.modify fun s => { s with pendingHangupTaskId := id }

/-- The id of the first call found in one of the running states, or `INVALID_CALLID`. -/
def firstCallIn (s : CallManager) : List CallRunningState → Int
  | [] => invalidCallId
  | state :: states =>
    match getOneCallObjectByState s state with
    | some p => (s.call p).callId
    | none => firstCallIn s states

/-- `HangUpCall`: a dialed call the network has not numbered yet is hung up once it
has. -/
def hangUpCall (env : Env) (callId : Int) : Prog CallManager RetCode := do
  let callId ← Prog.gets fun s =>
    if callId = invalidCallId then firstCallIn s [.active, .dialing, .connecting, .hold] else callId
  if callId = invalidCallId then pure .errArgumentInvalid
  else do
    let ret ← Prog.gets fun s => hangUpPolicy s callId
    if ret ≠ .success then pure ret
    else do
      let h ← Prog.gets fun s => s.helper
      if h.hasPendingMo callId then do
        setPendingMo false (-1)
        setPendingHangup true callId
        postPendingHangupProtectTask env callId
        pure .success
      else postRequest env (.hangUp callId)

/-! ## What applications ask -/

/-- `GetCallState()`. -/
def getCallState (s : CallManager) : CallStateToApp :=
  if !hasCellularCallExist s then .idle
  else if hasRingingCall s then .ringing
  else .offhook

/-- `HasCall()`. -/
def hasCall (s : CallManager) : Bool := hasCellularCallExist s

/-! ## Hold, resume, switch, end -/

/-- `HoldCall`. -/
def holdCall (env : Env) (callId : Int) : Prog CallManager RetCode := do
  let ret ← Prog.gets fun s => holdCallPolicy s callId
  if ret ≠ .success then pure ret else postRequest env (.hold callId)

/-- `UnHoldCall`. -/
def unHoldCall (env : Env) (callId : Int) : Prog CallManager RetCode := do
  let ret ← Prog.gets fun s => unHoldCallPolicy s callId
  if ret ≠ .success then pure ret else postRequest env (.unHold callId)

/-- `SwitchCall`. -/
def switchCall (env : Env) (callId : Int) : Prog CallManager RetCode := do
  let ret ← Prog.gets fun s => switchCallPolicy s callId
  if ret ≠ .success then pure ret else postRequest env (.switch callId)

/-- The loop of `EndCall` over the running states. -/
def endFirstCall (env : Env) : List CallRunningState → Prog CallManager RetCode
  | [] => pure .success
  | state :: states => do
    let call ← Prog.gets fun s => getOneCallObjectByState s state
    match call with
    | none => endFirstCall env states
    | some p => do
      let c ← getCall p
      if c.callId = invalidCallId then endFirstCall env states
      else if state = .ringing then rejectCall env c.callId false
      else hangUpCall env c.callId

/-- `EndCall`, by the code it tests. -/
def endCall (env : Env) : Prog CallManager RetCode :=
  endFirstCall env [.active, .ringing, .dialing, .connecting, .hold]

/-! ## Delayed tasks -/

/-- The body of a delayed task. -/
def runDelayedTask (env : Env) : DelayedTask → Prog CallManager Unit
  | .restoreDialingFlag => do
    modifyHelper fun h => { h with restoreTaskId := 0 }
    restoreDialingFlag false
  | .pendingHangupProtect callId => do
    Prog.modify fun s => { s with pendingHangupTaskId := 0 }
    let h ← Prog.gets fun s => s.helper
    Prog.when (h.hasPendingHangup callId) do
      let call ← Prog.gets fun s => getOneCallObject s callId
      Prog.forSome call fun p => (dealFailDial env p).ignore
      setPendingHangup false (-1)

end CallControlManager

end CallManagerMini
