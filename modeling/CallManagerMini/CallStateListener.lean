import CallManagerMini.CarrierCall

/-! # Broadcasts and call audio

`CallStateListener` tells its two observers about every broadcast.  The report
proxy's part, posting the application's callback, is the broadcast's event in
the log; the audio manager's part changes the tones and the call audio.
-/

namespace CallManagerMini

/-! ## Call audio -/

/-- Send a request to the registered audio implementation. -/
def requestAudio (env : Env) (r : AudioRequest) : Prog CallManager RetCode := fun s =>
  let reply := env.audio s.log r
  (match reply with
    | none => .callErrFunctionNotSupported
    | some code => .ofReply code,
   s.logged (.audio r reply))

def setAudio (f : AudioControl → AudioControl) : Prog CallManager Unit :=
  Prog.modify fun s => { s with audio := f s.audio }

/-- `StartRingtone`. -/
def startRingtone (env : Env) : Prog CallManager Unit := do
  let a ← Prog.gets fun s => s.audio
  Prog.when (!a.ringtonePlaying) do
    let ret ← requestAudio env .startRingtone
    setAudio fun a => { a with ringtonePlaying := ret = .success }

/-- `StopRingtone`. -/
def stopRingtone (env : Env) : Prog CallManager Unit := do
  let a ← Prog.gets fun s => s.audio
  Prog.when a.ringtonePlaying do
    setAudio fun a => { a with ringtonePlaying := false }
    (requestAudio env .stopRingtone).ignore

/-- `PlayWaitingTone`. -/
def playWaitingTone (env : Env) : Prog CallManager Unit := do
  let a ← Prog.gets fun s => s.audio
  Prog.when (!a.waitingTonePlaying) do
    let ret ← requestAudio env .playWaitingTone
    setAudio fun a => { a with waitingTonePlaying := ret = .success }

/-- `StopWaitingTone`. -/
def stopWaitingTone (env : Env) : Prog CallManager Unit := do
  let a ← Prog.gets fun s => s.audio
  Prog.when a.waitingTonePlaying do
    setAudio fun a => { a with waitingTonePlaying := false }
    (requestAudio env .stopWaitingTone).ignore

/-- `SetCallAudioActive`. -/
def setCallAudioActive (env : Env) (active : Bool) : Prog CallManager Unit := do
  let a ← Prog.gets fun s => s.audio
  Prog.when (a.callAudioActive ≠ active) do
    let ret ← requestAudio env (.setCallAudioActive active)
    Prog.when (ret = .success) (setAudio fun a => { a with callAudioActive := active })

/-- `AudioControlManager::ReleaseAll`. -/
def releaseAll : Prog CallManager Unit := setAudio fun _ => {}

/-- `AudioControlManager::CallStateUpdated`. -/
def audioCallStateUpdated (env : Env) (priorState nextState : TelCallState) :
    Prog CallManager Unit :=
  match nextState with
  | .incoming => startRingtone env
  | .waiting => playWaitingTone env
  | .answered | .active => do
    stopRingtone env
    stopWaitingTone env
    setCallAudioActive env true
  | .disconnected => do
    Prog.when (priorState = .incoming) (stopRingtone env)
    Prog.when (priorState = .waiting) (stopWaitingTone env)
    let busy ← Prog.gets hasCellularCallExist
    Prog.when (!busy) do
      stopRingtone env
      stopWaitingTone env
      setCallAudioActive env false
      releaseAll
  | _ => pure ()

/-! ## Broadcasts -/

/-- `NotifyCallStateUpdated`: both observers are told.  It always succeeds while
the service is initialised. -/
def notifyCallStateUpdated (env : Env) (p : Ref) (priorState nextState : TelCallState) :
    Prog CallManager Unit := do
  let c ← getCall p
  emit (.callStateUpdated c priorState nextState)
  audioCallStateUpdated env priorState nextState

/-- `NotifyNewCallCreated`; neither observer reacts to it. -/
def notifyNewCallCreated (p : Ref) : Prog CallManager Unit := do
  let c ← getCall p
  emit (.newCallCreated c)

/-- `NotifyIncomingCallAnswered`. -/
def notifyIncomingCallAnswered (p : Ref) : Prog CallManager Unit := do
  let c ← getCall p
  emit (.incomingCallActivated c)

/-- `NotifyIncomingCallRejected`: the ringtone stops. -/
def notifyIncomingCallRejected (env : Env) (p : Ref) (isSendSms : Bool) :
    Prog CallManager Unit := do
  let c ← getCall p
  emit (.incomingCallHungUp c isSendSms)
  stopRingtone env

end CallManagerMini
