import CallManagerMini.CallControlManager
import CallManagerMini.Lib.Runs

/-! # The service

The entries into the main loop: the guard in front of the stack's reports, the
service's `DialCall` with its checks, and the steps the main loop takes.  A
step runs one posted task or one API call to its end; the environment is chosen
anew for every step.
-/

namespace CallManagerMini

/-! ## Guarded reports -/

/-- `IsTerminated`: the buffer has a terminator within its capacity. -/
def isTerminated (text : Bytes) (capacity : Nat) : Bool := (text.take capacity).contains 0

/-- `IsValidReport`. -/
def isValidReport (info : CallReportInfo) : Bool :=
  isValidSlotId info.accountId &&
    (0 ≤ info.state && info.state ≤ 7) &&
    (info.callType = 0 || info.callType = 1) &&
    (0 ≤ info.callMode && info.callMode ≤ 3) &&
    isTerminated info.accountNum (kMaxNumberLen + 1)

/-- A character buffer read as a C string. -/
def cString (text : Bytes) : Bytes := text.takeWhile (· ≠ 0)

/-- `CallStatusCallback::UpdateCallReportInfo`: the fields of a single report. -/
def CallReportInfo.toDetail (info : CallReportInfo) : CallDetailInfo :=
  { callType := CallType.ofInt info.callType
    accountId := info.accountId
    index := info.index
    state := TelCallState.ofInt info.state
    callMode := VideoStateType.ofInt info.callMode
    mpty := info.mpty
    phoneIndex := info.phoneIndex
    phoneNum := cString (info.accountNum.take kMaxNumberLen) }

/-- `CallStatusCallback::UpdateCallsReportInfo`: the fields of an entry of a list. -/
def CallReportInfo.toListDetail (info : CallReportInfo) : CallDetailInfo :=
  { callType := CallType.ofInt info.callType
    accountId := info.accountId
    index := info.index
    state := TelCallState.ofInt info.state
    callMode := VideoStateType.ofInt info.callMode
    mpty := info.mpty
    crsType := info.crsType
    originalCallType := info.originalCallType
    phoneNum := cString (info.accountNum.take kMaxNumberLen)
    reason := info.reason
    message := info.message
    newCallUseBox := info.newCallUseBox
    imsDomain := info.imsDomain }

/-- What `CallStatusCallbackGuard::UpdateCallsReportInfo` asks of a list. -/
def isValidReportList (slotId : Int) (callVec : List CallReportInfo) : Bool :=
  callVec.length ≤ miniMaxReportedCalls && isValidSlotId slotId &&
    callVec.all fun call => isValidReport call && call.accountId = slotId

/-! ## Dialing through the service -/

/-- The keys of the application's extras that the service reads. -/
inductive ExtraKey where
  | accountId
  | videoState
  | dialScene
  | dialType
  | callType
  | isRTT
  | phoneIndex
  deriving DecidableEq, Repr

inductive PacValue where
  | int (n : Int)
  | long (n : Int)
  | boolean (b : Bool)
  | string (text : Bytes)
  deriving DecidableEq, Repr

/-- The application's extras, as far as the service reads them. -/
abbrev PacMap := ExtraKey → Option PacValue

/-- `GetIntValue(key)`: a value of another type reads as the default. -/
def PacMap.getIntValue (m : PacMap) (key : ExtraKey) : Int :=
  match m key with
  | some (.int n) => n
  | _ => 0

/-- `GetBooleanValue(key)`. -/
def PacMap.getBooleanValue (m : PacMap) (key : ExtraKey) : Bool :=
  match m key with
  | some (.boolean b) => b
  | _ => false

/-- `BuildDialInfo`. -/
def buildDialInfo (extras : PacMap) : DialExtras :=
  { accountId := extras.getIntValue .accountId
    videoState := extras.getIntValue .videoState
    dialScene := extras.getIntValue .dialScene
    dialType := extras.getIntValue .dialType
    callType := extras.getIntValue .callType
    isRTT := extras.getBooleanValue .isRTT
    phoneIndex := extras.getIntValue .phoneIndex }

/-- What `CallPermissionAdapter` says of the calling application. -/
structure Caller where
  isSystemCaller : Bool
  placeCall : Bool
  deriving DecidableEq, Repr

namespace CallManagerService

/-- `ACCOUNT_NUMBER_MAX_LENGTH`. -/
def accountNumberMaxLength : Nat := 255

/-- `CallManagerService::DialCall`. -/
def dialCall (env : Env) (caller : Caller) (number : List UInt16) (extras : PacMap) :
    Prog CallManager RetCode :=
  if number.length > accountNumberMaxLength then pure .callErrNumberOutOfRange
  else if !caller.isSystemCaller then pure .errIllegalUseOfSystemApi
  else if !caller.placeCall then pure .errPermissionErr
  else CallControlManager.dialCall env number (buildDialInfo extras)

end CallManagerService

/-! ## Main-loop steps -/

/-- What the main loop may be given to do next. -/
inductive Input where
  /-- A single report of the stack. -/
  | callReport (info : CallReportInfo)
  /-- A list report of the stack. -/
  | callsReport (slotId : Int) (callVec : List CallReportInfo)
  | disconnectedCause (reason : Int)
  | eventResult (eventId : RequestResultEventId)
  | dialCall (caller : Caller) (number : List UInt16) (extras : PacMap)
  | answerCall (callId videoState : Int) (isRTT : Bool)
  | rejectCall (callId : Int) (rejectWithMessage : Bool)
  | hangUpCall (callId : Int)
  | holdCall (callId : Int)
  | unHoldCall (callId : Int)
  | switchCall (callId : Int)
  | endCall
  /-- Run the oldest posted request. -/
  | nextRequest
  /-- A delayed task has become due. -/
  | delayedTask (taskId : Nat)

/-- Run the oldest posted request, if there is one. -/
def nextRequest (env : Env) : Prog CallManager Unit := do
  let request ← Prog.gets fun s => s.requests.head?
  Prog.forSome request fun r => do
    Prog.modify fun s => { s with requests := s.requests.tail }
    runRequest env r

/-- Take a delayed task out of the table and run it, if it is there. -/
def delayedTask (env : Env) (taskId : Nat) : Prog CallManager Unit := do
  let task ← Prog.gets fun s => s.delayed.find? fun t => t.1 = taskId
  Prog.forSome task fun t => do
    removeAsyncTask taskId
    CallControlManager.runDelayedTask env t.2

/-- One step of the main loop.  A report the guard rejects is not posted, so it does
nothing. -/
def mainLoopStep (env : Env) : Input → Prog CallManager Unit
  | .callReport info =>
    Prog.when (isValidReport info) (handleCallReportInfo env info.toDetail).ignore
  | .callsReport slotId callVec =>
    Prog.when (isValidReportList slotId callVec)
      (handleCallsReportInfo env slotId (callVec.map CallReportInfo.toListDetail)).ignore
  | .disconnectedCause reason => (handleDisconnectedCause reason).ignore
  | .eventResult eventId => (handleEventResultReportInfo env eventId).ignore
  | .dialCall caller number extras =>
    (CallManagerService.dialCall env caller number extras).ignore
  | .answerCall callId videoState isRTT =>
    (CallControlManager.answerCall env callId videoState isRTT).ignore
  | .rejectCall callId rejectWithMessage =>
    (CallControlManager.rejectCall env callId rejectWithMessage).ignore
  | .hangUpCall callId => (CallControlManager.hangUpCall env callId).ignore
  | .holdCall callId => (CallControlManager.holdCall env callId).ignore
  | .unHoldCall callId => (CallControlManager.unHoldCall env callId).ignore
  | .switchCall callId => (CallControlManager.switchCall env callId).ignore
  | .endCall => (CallControlManager.endCall env).ignore
  | .nextRequest => nextRequest env
  | .delayedTask taskId => delayedTask env taskId

/-- The state after `Init`. -/
def CallManager.init : CallManager := {}

/-- One main-loop step, in some environment and with some input. -/
def MainLoopStep (s s' : CallManager) : Prop := ∃ env input, s' = (mainLoopStep env input s).2

/-- The states the service can reach at the end of a main-loop step. -/
def Reachable : CallManager → Prop := Runs.Reachable (· = CallManager.init) MainLoopStep

/-- A report that got past the guard, alone or in a list. -/
inductive CallDetailInfo.IsAccepted : CallDetailInfo → Prop where
  | single {info : CallReportInfo} : isValidReport info = true → IsAccepted info.toDetail
  | listed {slotId : Int} {callVec : List CallReportInfo} {info : CallReportInfo} :
    isValidReportList slotId callVec = true → info ∈ callVec → IsAccepted info.toListDetail

/-- The state after a run, given by the environment and the input of each step. -/
def CallManager.run (steps : List (Env × Input)) : CallManager :=
  steps.foldl (fun s step => (mainLoopStep step.1 step.2 s).2) .init

theorem reachable_run (steps : List (Env × Input)) : Reachable (.run steps) := by
  suffices ∀ s, Reachable s →
      Reachable (steps.foldl (fun s step => (mainLoopStep step.1 step.2 s).2) s) from
    this _ (.start rfl)
  induction steps with
  | nil => exact fun s hs => hs
  | cons step steps ih => exact fun s hs => ih _ (hs.next ⟨step.1, step.2, rfl⟩)

/-- A stack, a core service and an audio implementation that are registered and do
what they are asked, with `112` the only emergency number. -/
def Env.obliging : Env where
  stack _ _ := some 0
  answer _
    | .isEmergencyPhoneNumber number _ => number = [49, 49, 50]
    | _ => true
  audio _ _ := some 0
  post _ := .success
  time _ := 0

/-- The same with a stack that refuses every command. -/
def Env.refusing : Env := { Env.obliging with stack := fun _ _ => some 1 }

/-- An incoming CS call of slot 0, as the stack reports it. -/
def ringingReport (index : Int) : CallReportInfo :=
  { index := index, accountNum := [49, 0], callType := 0, state := 4 }

end CallManagerMini
