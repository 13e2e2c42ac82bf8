import CallManagerMini.Types

/-! # Call objects

`CallBase`, `CarrierCall`, `CSCall` and `IMSCall` as one record: the Mini build
creates no other call objects, and the two carrier call classes differ only in
their call type.  The methods that only touch the object itself are functions on
the record; those that reach the stack or a conference are in `CarrierCall` and
`Conference`.
-/

namespace CallManagerMini

/-- A call object.  `isIMSCall` is the class it was created as, which keeps
deciding which methods run when `SetCallType` changes the `callType` field; the
fields after `rejectType` are `CarrierCall`'s. -/
structure CallBase where
  isIMSCall : Bool := false
  callId : Int := 0
  callType : CallType := .cs
  videoState : VideoStateType := .voice
  accountNumber : Bytes := []
  callRunningState : CallRunningState := .create
  conferenceState : TelConferenceState := .idle
  startTime : Int := 0
  direction : CallDirection := .incoming
  policyFlag : Nat := 0
  callState : TelCallState := .unknown
  canUnHoldState : Bool := true
  canSwitchCallState : Bool := true
  answerVideoState : Int := 0
  callBeginTime : Int := 0
  callCreateTime : Int := 0
  callEndTime : Int := 0
  ringBeginTime : Int := 0
  ringEndTime : Int := 0
  answerType : CallAnswerType := .missed
  crsType : Int := 0
  originalCallType : Int := 0
  isEccContact : Bool := false
  isAnswered : Bool := false
  phoneOrWatch : Int := 0
  newCallUseBox : Int := 0
  imsDomain : Int := 0
  isApCauseReported : Bool := false
  rejectType : RejectType := .normal
  dialScene : DialScene := .normal
  slotId : Int := 0
  index : Int := 0
  isEcc : Bool := false
  deriving DecidableEq, Repr, Inhabited

namespace CallBase

/-- The constructors: with the dial extras an outgoing call, without them an
incoming one. -/
def ofParaInfo (info : DialParaInfo) (dir : CallDirection) (dialScene : DialScene) : CallBase :=
  { isIMSCall := info.callType = .ims
    callId := info.callId
    callType := info.callType
    videoState := info.videoState
    accountNumber := info.number
    direction := dir
    callState := info.callState
    crsType := info.crsType
    originalCallType := info.originalCallType
    phoneOrWatch := info.phoneOrWatch
    newCallUseBox := info.newCallUseBox
    dialScene := dialScene
    slotId := info.accountId
    index := info.index
    isEcc := info.isEcc }

/-! ## The `StateChangesTo…` functions -/

def stateChangesToDialing (c : CallBase) : CallBase := { c with callRunningState := .dialing }

def stateChangesToIncoming (now : Int) (c : CallBase) : CallBase :=
  { c with callRunningState := .ringing, ringBeginTime := now }

def stateChangesToWaiting (now : Int) (c : CallBase) : CallBase :=
  { c with callRunningState := .ringing, ringBeginTime := now }

def stateChangesToActive (now : Int) (c : CallBase) : CallBase :=
  let c := { c with callRunningState := .active }
  if c.callBeginTime = 0 then
    { c with
      callBeginTime := now, ringEndTime := now, startTime := now, answerType := .actived }
  else c

def stateChangesToHolding (c : CallBase) : CallBase :=
  let c := { c with callRunningState := .hold }
  if c.conferenceState = .active then { c with conferenceState := .disconnected } else c

def stateChangesToDisconnected (now : Int) (c : CallBase) : CallBase :=
  let c := { c with callRunningState := .ended }
  let c :=
    if c.conferenceState = .disconnecting ∨ c.conferenceState = .active then
      { c with conferenceState := .disconnected }
    else c
  let c := { c with callEndTime := now }
  if c.ringEndTime = 0 then { c with ringEndTime := now } else c

def stateChangesToDisconnecting (now : Int) (c : CallBase) : CallBase :=
  let c := { c with callRunningState := .ending }
  let c :=
    if c.conferenceState = .active then { c with conferenceState := .disconnecting } else c
  if c.ringEndTime = 0 then { c with ringEndTime := now } else c

def stateChangesToAlerting (now : Int) (c : CallBase) : CallBase :=
  { c with callRunningState := .dialing, ringBeginTime := now }

/-- The state change `SetTelCallState` performs once the state counts as new. -/
def stateChangesTo (now : Int) (nextState : TelCallState) (c : CallBase) : CallBase :=
  match nextState with
  | .dialing => c.stateChangesToDialing
  | .incoming => c.stateChangesToIncoming now
  | .waiting => c.stateChangesToWaiting now
  | .active => c.stateChangesToActive now
  | .holding => c.stateChangesToHolding
  | .disconnected => c.stateChangesToDisconnected now
  | .disconnecting => c.stateChangesToDisconnecting now
  | .alerting => c.stateChangesToAlerting now
  | _ => c

/-- `SetTelCallState` on the object: the code it returns and the object it leaves. -/
def setTelCallState (now : Int) (nextState : TelCallState) (c : CallBase) : RetCode × CallBase :=
  if c.callRunningState ≠ .create ∧ c.callState = nextState ∧ nextState ≠ .dialing then
    (.callErrNotNewState, c)
  else
    (.success, stateChangesTo now nextState { c with callState := nextState })

/-- `RejectCallBase`. -/
def rejectCallBase (c : CallBase) : CallBase :=
  { c with answerType := if c.rejectType = .missedCall then .missed else .reject }

/-- `IsCurrentRinging`. -/
def isCurrentRinging (c : CallBase) : Bool := c.callRunningState = .ringing

/-- `SetPolicyFlag`, which only ever adds flags. -/
def setPolicyFlag (flag : Nat) (c : CallBase) : CallBase :=
  { c with policyFlag := c.policyFlag ||| flag }

/-- `CarrierCall::PackCellularCallInfo`.  A number that is too long leaves the
number field empty; the callers send the command all the same. -/
def packCellularCallInfo (c : CallBase) : CellularCallInfo :=
  { callId := c.callId
    callType := c.callType
    videoState := c.videoState.toInt
    index := c.index
    slotId := c.slotId
    accountId := c.slotId
    phoneNum := if c.accountNumber.length > kMaxNumberLen then [] else c.accountNumber }

end CallBase

end CallManagerMini
