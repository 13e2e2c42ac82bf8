import CallManagerMini.State

/-! # The call table

`CallObjectManager`: the list of call objects, its admission rule, and the
lookups the rest of the service goes through.  A lookup reads the table from the
front and returns the first match, except the two by running state, which read
it from the back.

VoIP, Bluetooth and satellite calls do not exist in this build, but the lookups
keep their tests for them.
-/

namespace CallManagerMini

namespace CallManager

/-- The first call object of the table with the property `f`. -/
def findCall (s : CallManager) (f : CallBase → Bool) : Option Ref :=
  s.callObjectPtrList.find? fun p => f (s.call p)

/-- The last call object of the table with the property `f`. -/
def findLastCall (s : CallManager) (f : CallBase → Bool) : Option Ref :=
  s.callObjectPtrList.reverse.find? fun p => f (s.call p)

/-- Whether some call object of the table has the property `f`. -/
def anyCall (s : CallManager) (f : CallBase → Bool) : Bool :=
  s.callObjectPtrList.any fun p => f (s.call p)

end CallManager

/-- A CS, IMS, satellite or Bluetooth call. -/
def CallType.isCarrierListed (t : CallType) : Bool :=
  t = .cs || t = .ims || t = .satellite || t = .bluetooth

/-! ## Lookups -/

section Lookups
variable (s : CallManager)

/-- `GetOneCallObject(callId)`. -/
def getOneCallObject (callId : Int) : Option Ref := s.findCall fun c => c.callId = callId

/-- `GetOneCallObject(callState)`: the last match. -/
def getOneCallObjectByState (callState : CallRunningState) : Option Ref :=
  s.findLastCall fun c => c.callRunningState = callState

/-- `GetOneCarrierCallObject(callState)`: the last match. -/
def getOneCarrierCallObject (callState : CallRunningState) : Option Ref :=
  s.findLastCall fun c => c.callRunningState = callState && c.callType ≠ .voip

/-- `GetOneCallObjectByIndex(index)`: of any slot. -/
def getOneCallObjectByIndex (index : Int) : Option Ref :=
  s.findCall fun c => c.index = index && c.callType ≠ .voip

/-- `GetOneCallObjectByIndexAndSlotId(index, slotId)`. -/
def getOneCallObjectByIndexAndSlotId (index slotId : Int) : Option Ref :=
  s.findCall fun c => c.index = index && c.slotId = slotId && c.callType ≠ .voip

/-- `GetOneCallObjectByIndexSlotIdAndCallType(index, slotId, …)`.  The source takes
a call type and a phone index too, and looks at neither. -/
def getOneCallObjectByIndexSlotIdAndCallType (index slotId : Int) : Option Ref :=
  s.findCall fun c =>
    c.callType ≠ .bluetooth && c.index = index && c.slotId = slotId && c.callType ≠ .voip

/-- `GetCarrierCallList`: the ids of the carrier calls. -/
def getCarrierCallList : List Int :=
  (s.callObjectPtrList.filter fun p => (s.call p).callType.isCarrierListed).map
    fun p => (s.call p).callId

/-- `HasNewCall() != TELEPHONY_SUCCESS`. -/
def hasNewCall : Bool :=
  s.anyCall fun c => c.callType ≠ .voip &&
    (c.callRunningState = .create || c.callRunningState = .connecting ||
      c.callRunningState = .dialing || c.callType = .satellite)

/-- A call that counts for `IsNewCallAllowedCreate`: every call outside a
conference, and the main call of the IMS conference. -/
def countsAsCall (callId : Int) : Bool :=
  match getOneCallObject s callId with
  | none => false
  | some p =>
    ((s.call p).conferenceState ≠ .idle && s.imsConference.mainCallId = callId) ||
      (s.call p).conferenceState = .idle

/-- `IsNewCallAllowedCreate(enabled)`: what it sets `enabled` to. -/
def isNewCallAllowedCreate : Bool :=
  if s.anyCall (fun c => c.callType ≠ .voip &&
      (c.callRunningState = .create || c.callRunningState = .connecting ||
        c.callRunningState = .dialing || c.callRunningState = .ringing)) then false
  else !(2 ≤ ((getCarrierCallList s).filter (countsAsCall s)).length : Bool)

/-- `HasRingingMaximum()`. -/
def hasRingingMaximum : Bool :=
  30 ≤ (s.callObjectPtrList.filter fun p => (s.call p).callRunningState = .ringing).length

/-- `HasDialingMaximum()`, which counts the active calls. -/
def hasDialingMaximum : Bool :=
  30 ≤ (s.callObjectPtrList.filter fun p => (s.call p).callRunningState = .active).length

/-- `HasEmergencyCall(enabled)`: what it sets `enabled` to. -/
def hasEmergencyCall : Bool := s.anyCall fun c => c.isEcc

/-- `IsCallExist(callId)`. -/
def isCallExist (callId : Int) : Bool := s.anyCall fun c => c.callId = callId

/-- `IsCallExist(callType, callState)`. -/
def isCallExistOfType (callType : CallType) (callState : TelCallState) : Bool :=
  s.anyCall fun c => c.callType = callType && c.callState = callState

/-- `IsCallExist(callState)`. -/
def isCallExistInState (callState : TelCallState) : Bool :=
  s.anyCall fun c => c.callState = callState

/-- `HasCellularCallExist()`. -/
def hasCellularCallExist : Bool :=
  s.anyCall fun c => c.callType.isCarrierListed &&
    (c.callState ≠ .disconnected && c.callState ≠ .disconnecting)

/-- `HasRingingCall(hasRingingCall)`: what it sets the flag to. -/
def hasRingingCall : Bool := s.anyCall fun c => c.callRunningState = .ringing

/-- `HasVideoCall()`. -/
def hasVideoCall : Bool := s.anyCall fun c => c.videoState = .video && c.callType ≠ .voip

/-- `GetCallState(callId)`. -/
def getCallState (callId : Int) : TelCallState :=
  match getOneCallObject s callId with
  | none => .idle
  | some p => (s.call p).callState

/-- `GetCallNum(callState)`. -/
def getCallNum (callState : TelCallState) : Nat :=
  (s.callObjectPtrList.filter fun p =>
    (s.call p).callState = callState && (s.call p).callType ≠ .voip).length

end Lookups

/-! ## Changing the table -/

/-- The number of call objects among which a new one may stand. -/
def callObjectLimit (isEcc : Bool) : Nat :=
  if isEcc then miniMaxCallObjects else miniMaxCallObjects - miniEccReservedCallObjects

/-- `AddOneCallObject`. -/
def addOneCallObject (p : Ref) : Prog CallManager RetCode := fun s =>
  if s.anyCall fun c => c.callId = (s.call p).callId then (.callErrPhoneCallAlreadyExists, s)
  else if callObjectLimit (s.call p).isEcc ≤ s.callObjectPtrList.length then
    (.callErrCallCountsExceedLimit, s)
  else
    (.success,
      { s with callObjectPtrList := s.callObjectPtrList ++ [p] }.logged
        (.callAdded (s.call p).callId (s.call p).callState))

/-- `DeleteOneCallObject(callId)`. -/
def deleteOneCallObject (callId : Int) : Prog CallManager Unit :=
  Prog.modify fun s =>
    { s with
      callObjectPtrList := s.callObjectPtrList.eraseP fun p => (s.call p).callId = callId }

/-- `GetNewCallId`, without the overflow of its `int32_t`. -/
def getNewCallId : Prog CallManager Int := fun s =>
    (s.callId + 1, { s with callId := s.callId + 1 })

/-- `SetTelCallState` of the object behind `p`. -/
def setTelCallState (env : Env) (p : Ref) (nextState : TelCallState) : Prog CallManager RetCode :=
  fun s =>
    let r := (s.call p).setTelCallState (env.time s.log) nextState
    (r.1, s.updateCall p fun _ => r.2)

/-- `UpdateOneCallObjectByCallId`. -/
def updateOneCallObjectByCallId (env : Env) (callId : Int) (nextState : TelCallState) :
    Prog CallManager Unit := fun s =>
  Prog.forEach s.callObjectPtrList
    (fun p => do
      let c ← getCall p
      Prog.when (c.callId = callId) (setTelCallState env p nextState).ignore) s

end CallManagerMini
