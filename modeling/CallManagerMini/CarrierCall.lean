import CallManagerMini.CallObjectManager

/-! # Call objects at work

The methods of `CSCall` and `IMSCall` that reach outside the object: the commands
to the stack, and the bookkeeping in the conference of the object's class.
-/

namespace CallManagerMini

/-! ## Commands -/

/-- `HangUpCall`: the supplement type follows the policy flags of the object. -/
def hangUpCall (env : Env) (p : Ref) : Prog CallManager RetCode := do
  let c ← getCall p
  let type : CallSupplementType :=
    if c.policyFlag &&& policyFlagHangUpActive ≠ 0 then .hangUpActive
    else if c.policyFlag &&& policyFlagHangUpHoldWait ≠ 0 then .hangUpHoldWait
    else .default
  let ret ← sendCommand env (.hangUp c.packCellularCallInfo type)
  pure (if ret ≠ .success then .callErrHangupFailed else .success)

/-- `RejectCall`: the stack is told to hang up. -/
def rejectCall (env : Env) (p : Ref) : Prog CallManager RetCode := do
  modifyCall p CallBase.rejectCallBase
  let c ← getCall p
  let ret ← sendCommand env (.hangUp c.packCellularCallInfo .default)
  pure (if ret ≠ .success then .callErrRejectFailed else .success)

/-- `AnswerCall`; a CS call drops the RTT request. -/
def answerCall (env : Env) (p : Ref) (videoState : Int) (isRTT : Bool) :
    Prog CallManager RetCode := do
  let c ← getCall p
  if !c.isCurrentRinging then pure .callErrAnswerFailed
  else do
    let callInfo :=
      { c.packCellularCallInfo with videoState := videoState, isRTT := c.isIMSCall && isRTT }
    let ret ← sendCommand env (.answer callInfo)
    pure (if ret ≠ .success then .callErrAnswerFailed else .success)

/-- `HoldCall`. -/
def holdCall (env : Env) (p : Ref) : Prog CallManager RetCode := do
  let c ← getCall p
  let ret ← sendCommand env (.holdCall c.packCellularCallInfo)
  pure (if ret ≠ .success then .callErrHoldFailed else .success)

/-- `UnHoldCall`. -/
def unHoldCall (env : Env) (p : Ref) : Prog CallManager RetCode := do
  let c ← getCall p
  let ret ← sendCommand env (.unHoldCall c.packCellularCallInfo)
  pure (if ret ≠ .success then .callErrUnholdFailed else .success)

/-- `SwitchCall`. -/
def switchCall (env : Env) (p : Ref) : Prog CallManager RetCode := do
  let c ← getCall p
  let ret ← sendCommand env (.switchCall c.packCellularCallInfo)
  pure (if ret ≠ .success then .callErrUnholdFailed else .success)

/-- `DialingProcess`, which is `DialCallBase`. -/
def dialingProcess (p : Ref) : Prog CallManager RetCode := do
  modifyCall p fun c => { c with callRunningState := .connecting }
  pure .success

/-- `IncomingCallBase`. -/
def incomingCallBase (p : Ref) : Prog CallManager Unit :=
  modifyCall p fun c => { c with callRunningState := .ringing }

/-! ## Conferences -/

namespace CallManager

/-- The conference of a call object's class. -/
def conference (s : CallManager) (isIMSCall : Bool) : ConferenceBase :=
  if isIMSCall then s.imsConference else s.csConference

def setConference (s : CallManager) (isIMSCall : Bool) (c : ConferenceBase) : CallManager :=
  if isIMSCall then { s with imsConference := c } else { s with csConference := c }

end CallManager

/-- Run a conference operation on the conference of a call object's class. -/
def onConference {α : Type} (isIMSCall : Bool) (f : Int → ConferenceBase → α × ConferenceBase)
    (env : Env) : Prog CallManager α := fun s =>
  let r := f (env.time s.log) (s.conference isIMSCall)
  (r.1, s.setConference isIMSCall r.2)

/-- `SetTelConferenceState`. -/
def setTelConferenceState (p : Ref) (state : TelConferenceState) : Prog CallManager Unit :=
  modifyCall p fun c => { c with conferenceState := state }

/-- `LaunchConference`.  A CS call first puts the conference back to idle. -/
def launchConference (env : Env) (p : Ref) : Prog CallManager RetCode := do
  let c ← getCall p
  let ret ← onConference c.isIMSCall (fun now conf =>
    let conf := if c.isIMSCall then conf else conf.setConferenceState .idle
    conf.joinToConference now c.callId) env
  Prog.when (ret = .success) (setTelConferenceState p .active)
  pure ret

/-- `ExitConference`. -/
def exitConference (env : Env) (p : Ref) : Prog CallManager RetCode := do
  let c ← getCall p
  let ret ← onConference c.isIMSCall (fun _ conf => conf.leaveFromConference c.callId) env
  Prog.when (ret = .success) (setTelConferenceState p .idle)
  pure ret

/-- `HoldConference`. -/
def holdConference (env : Env) (p : Ref) : Prog CallManager RetCode := do
  let c ← getCall p
  let ret ← onConference c.isIMSCall (fun _ conf => conf.holdConference c.callId) env
  Prog.when (ret = .success) (setTelConferenceState p .holding)
  pure ret

/-- `GetSubCallIdList`. -/
def getSubCallIdList (env : Env) (p : Ref) : Prog CallManager (List Int) := do
  let c ← getCall p
  onConference c.isIMSCall (fun _ conf => ((conf.getSubCallIdList c.callId).2, conf)) env

/-- `HandleCombineConferenceFailEvent`. -/
def handleCombineConferenceFailEvent (env : Env) (p : Ref) : Prog CallManager Unit := do
  let c ← getCall p
  onConference c.isIMSCall (fun _ conf => ((), conf.combineConferenceFailed)) env

end CallManagerMini
