import Mathlib.Data.List.Basic

/-! # The vocabulary of the call manager

The enumerations of `call_manager_base.h`, the records that reports, dials and
stack commands carry, and the return codes.  An enumeration is an inductive
type; where an `int32_t` is cast to one, `ofInt` is the cast.

A `std::string` is the list of its bytes.  Fields that no modelled function
reads (bundle names, display names, the extra parameter string) are left out.
-/

namespace CallManagerMini

/-- A `std::string`, byte by byte. -/
abbrev Bytes := List UInt8

/-- `kMaxNumberLen`. -/
def kMaxNumberLen : Nat := 255

/-- `ERR_ID`: the main call of a conference that has none. -/
def errId : Int := -1

/-- `INVALID_CALLID`. -/
def invalidCallId : Int := 0

/-- `MINI_MAX_CALL_OBJECTS`. -/
def miniMaxCallObjects : Nat := 5

/-- `MINI_ECC_RESERVED_CALL_OBJECTS`. -/
def miniEccReservedCallObjects : Nat := 1

/-- `MINI_SLOT_COUNT`, which is also `SLOT_NUM`. -/
def miniSlotCount : Int := 2

/-- `MINI_MAX_REPORTED_CALLS`. -/
def miniMaxReportedCalls : Nat := 5

/-- The return codes the call manager produces, and the codes it passes on from
the stack. -/
inductive RetCode where
  | success
  | errFail
  | errLocalPtrNull
  | errArgumentInvalid
  | errIpcConnectStubFail
  | errUninit
  | errPermissionErr
  | errIllegalUseOfSystemApi
  | errRegisterCallbackFail
  | errUnregisterCallbackFail
  | errPolicyDisabled
  | errNoSimCard
  | errAirplaneModeOn
  | errNetworkNotInService
  | callErrInvalidSlotId
  | callErrPhoneNumberEmpty
  | callErrNumberOutOfRange
  | callErrUnknowCallType
  | callErrNotNewState
  | callErrCallObjectIsNull
  | callErrDialIsBusy
  | callErrCallIsNotActivated
  | callErrCallIsNotOnHolding
  | callErrIllegalCallOperation
  | callErrCallStateMismatchOperation
  | callErrCallState
  | callErrCallCountsExceedLimit
  | callErrPhoneAnswerIsBusy
  | callErrPhoneCallAlreadyExists
  | callErrPhoneCallsTooFew
  | callErrPhoneTypeUnexpected
  | callErrAnswerFailed
  | callErrRejectFailed
  | callErrHoldFailed
  | callErrUnholdFailed
  | callErrHangupFailed
  | callErrConferenceSeperateFailed
  | callErrTheCallIsNotInTheConference
  | callErrVideoNotSupported
  | callErrFunctionNotSupported
  /-- A nonzero code of the registered stack. -/
  | other (code : Int)
  deriving DecidableEq, Repr

/-- The code a stack or an audio implementation answered with. -/
def RetCode.ofReply (code : Int) : RetCode := if code = 0 then .success else .other code

theorem RetCode.ofReply_eq_success {code : Int} : RetCode.ofReply code = .success ↔ code = 0 := by
  unfold RetCode.ofReply
  split <;> simp_all

inductive CallType where
  | cs
  | ims
  | ott
  | errCall
  | voip
  | satellite
  | bluetooth
  deriving DecidableEq, Repr, Inhabited

/-- The cast `(CallType)n`.  Values without an enumerator never get past
`ValidateCallType` or the report guard, so they all become `errCall`. -/
def CallType.ofInt : Int → CallType
  | 0 => .cs
  | 1 => .ims
  | 2 => .ott
  | 4 => .voip
  | 5 => .satellite
  | 6 => .bluetooth
  | _ => .errCall

inductive TelCallState where
  | unknown
  | active
  | holding
  | dialing
  | alerting
  | incoming
  | waiting
  | disconnected
  | disconnecting
  | idle
  | answered
  deriving DecidableEq, Repr, Inhabited

/-- The cast `(TelCallState)n`. -/
def TelCallState.ofInt : Int → TelCallState
  | 0 => .active
  | 1 => .holding
  | 2 => .dialing
  | 3 => .alerting
  | 4 => .incoming
  | 5 => .waiting
  | 6 => .disconnected
  | 7 => .disconnecting
  | 8 => .idle
  | 9 => .answered
  | _ => .unknown

/-- `CallStateToApp`: the state of the service as applications see it. -/
inductive CallStateToApp where
  | unknown
  | idle
  | ringing
  | offhook
  | answered
  deriving DecidableEq, Repr, Inhabited

inductive TelConferenceState where
  | idle
  | active
  | holding
  | disconnecting
  | disconnected
  deriving DecidableEq, Repr, Inhabited

inductive CallRunningState where
  | create
  | connecting
  | dialing
  | ringing
  | active
  | hold
  | ended
  | ending
  deriving DecidableEq, Repr, Inhabited

inductive VideoStateType where
  | voice
  | sendOnly
  | receiveOnly
  | video
  deriving DecidableEq, Repr, Inhabited

/-- The cast `(VideoStateType)n`, for values that passed `ValidateVideoState` or
the report guard. -/
def VideoStateType.ofInt : Int → VideoStateType
  | 1 => .sendOnly
  | 2 => .receiveOnly
  | 3 => .video
  | _ => .voice

def VideoStateType.toInt : VideoStateType → Int
  | .voice => 0
  | .sendOnly => 1
  | .receiveOnly => 2
  | .video => 3

inductive DialScene where
  | normal
  | privileged
  | emergency
  deriving DecidableEq, Repr, Inhabited

/-- The cast `(DialScene)n`, for values that passed `ValidateDialScene`. -/
def DialScene.ofInt : Int → DialScene
  | 1 => .privileged
  | 2 => .emergency
  | _ => .normal

def DialScene.toInt : DialScene → Int
  | .normal => 0
  | .privileged => 1
  | .emergency => 2

inductive DialType where
  | carrier
  | voiceMail
  | ott
  | bluetooth
  | invalid
  deriving DecidableEq, Repr, Inhabited

/-- The cast `(DialType)n`; `invalid` stands for the values without an enumerator. -/
def DialType.ofInt : Int → DialType
  | 0 => .carrier
  | 1 => .voiceMail
  | 2 => .ott
  | 3 => .bluetooth
  | _ => .invalid

inductive CallDirection where
  | incoming
  | outgoing
  deriving DecidableEq, Repr, Inhabited

inductive CallAnswerType where
  | missed
  | actived
  | reject
  | answeredElsewher
  deriving DecidableEq, Repr, Inhabited

inductive RejectType where
  | normal
  | missedCall
  deriving DecidableEq, Repr, Inhabited

inductive CallSupplementType where
  | default
  | hangUpHoldWait
  | hangUpActive
  deriving DecidableEq, Repr, Inhabited

/-- The request results the stack reports; `other` stands for the ids the call
manager does not transfer to the application. -/
inductive RequestResultEventId where
  | dialNoCarrier
  | holdSendFailed
  | swapSendFailed
  | combineSendFailed
  | splitSendFailed
  | other (id : Int)
  deriving DecidableEq, Repr

inductive CallAbilityEventId where
  | dialNoCarrier
  | holdCallFailed
  | swapCallFailed
  | combineCallFailed
  | splitCallFailed
  deriving DecidableEq, Repr

/-- `POLICY_FLAG_HANG_UP_HOLD_WAIT`. -/
def policyFlagHangUpHoldWait : Nat := 0x100

/-- `POLICY_FLAG_HANG_UP_ACTIVE`. -/
def policyFlagHangUpActive : Nat := 0x200

/-- `RilDisconnectedReason::DISCONNECTED_REASON_CS_CALL_ANSWERED_ELSEWHER`. -/
def disconnectedReasonCsCallAnsweredElsewher : Int := 13

/-- `RilDisconnectedReason::DISCONNECTED_REASON_ANSWERED_ELSEWHER`. -/
def disconnectedReasonAnsweredElsewher : Int := 18632

/-- One call as the stack reports it (`CallReportInfo`).  The enumerations arrive
as bare integers and the number as a character buffer: nothing is checked yet. -/
structure CallReportInfo where
  index : Int := 0
  accountNum : Bytes := []
  accountId : Int := 0
  callType : Int := 3
  callMode : Int := 0
  state : Int := -1
  mpty : Int := 0
  crsType : Int := 0
  originalCallType : Int := 0
  reason : Int := 1279
  message : Bytes := []
  newCallUseBox : Int := 0
  imsDomain : Int := 0
  phoneIndex : Int := 0
  deriving DecidableEq, Repr

/-- One call of a report on its way through the call manager (`CallDetailInfo`). -/
structure CallDetailInfo where
  index : Int := 0
  phoneNum : Bytes := []
  accountId : Int := 0
  callType : CallType := .errCall
  callMode : VideoStateType := .voice
  state : TelCallState := .unknown
  mpty : Int := 0
  crsType : Int := 0
  originalCallType : Int := 0
  reason : Int := 1279
  message : Bytes := []
  phoneOrWatch : Int := 0
  newCallUseBox : Int := 0
  imsDomain : Int := 0
  phoneIndex : Int := 0
  deriving DecidableEq, Repr

/-- The parameters of a dial or of a call object under construction
(`DialParaInfo`). -/
structure DialParaInfo where
  accountId : Int := 0
  callId : Int := 0
  index : Int := 0
  isRTT : Bool := false
  number : Bytes := []
  dialType : DialType := .carrier
  videoState : VideoStateType := .voice
  callType : CallType := .errCall
  callState : TelCallState := .idle
  isDialing : Bool := false
  isEcc : Bool := false
  crsType : Int := 0
  originalCallType : Int := 0
  phoneOrWatch : Int := 0
  newCallUseBox : Int := 0
  phoneIndex : Int := 0
  deriving DecidableEq, Repr

/-- The fields of a `CellularCallInfo` the call manager fills in. -/
structure CellularCallInfo where
  callId : Int
  callType : CallType
  videoState : Int
  index : Int
  slotId : Int
  accountId : Int
  isRTT : Bool := false
  phoneNum : Bytes
  deriving DecidableEq, Repr

/-- A command to the cellular call stack. -/
inductive Command where
  | dial (info : CellularCallInfo)
  | hangUp (info : CellularCallInfo) (type : CallSupplementType)
  | answer (info : CellularCallInfo)
  | holdCall (info : CellularCallInfo)
  | unHoldCall (info : CellularCallInfo)
  | switchCall (info : CellularCallInfo)
  deriving DecidableEq, Repr

/-- A request to the call audio implementation. -/
inductive AudioRequest where
  | startRingtone
  | stopRingtone
  | playWaitingTone
  | stopWaitingTone
  | setCallAudioActive (active : Bool)
  deriving DecidableEq, Repr

end CallManagerMini
