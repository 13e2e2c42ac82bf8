import CallManagerMini.CallManagerService

/-! # Relations that most programs move along

Most of what the service remembers is touched in a few places only: the tones by the
broadcasts, the pending flags and the delayed tasks by a handful of functions, the state of a
conference by four.  A relation about one of these is moved along by all the other programs,
and by the same composition whatever the relation is.  The classes say what such a relation
has to put up with; the instances are the programs.

A relation is `Meek` if it puts up with notes in the log and with what call objects do behind
their faces, `Lenient` if also with their states and with new objects, `Bare` if with whatever
the table goes through, and `Plain` if with the conferences and the replacement of call
objects as well.  Beside these it may put up with some of the rest: the tones (`Muting`,
`Audible`, `Toneless`), the broadcasts (`Answering`, `Outspoken`), the pending flags and the
delayed tasks (`Easygoing`, `Patient`, `Clearing`, `Starting`, `Timeless`), the policy flags
(`Flagging`) and the requests (`Posting`).
-/

namespace CallManagerMini

open Prog (Moves)

-- a function is one chain of binds, and a search walks all of it
set_option synthInstance.maxSize 2048

variable {R : CallManager → CallManager → Prop} {env : Env} {p : Ref}

/-- A request to the audio implementation, with its reply. -/
def Event.sound : Event → Option (AudioRequest × Option Int)
  | .audio r reply => some (r, reply)
  | _ => none

/-- What the audio implementation was asked so far, and what it answered. -/
def CallManager.sounds (s : CallManager) : List (AudioRequest × Option Int) :=
  s.log.filterMap Event.sound

theorem CallManager.sounds_logged (s : CallManager) (e : Event) :
    (s.logged e).sounds = s.sounds ++ e.sound.toList := by
  unfold CallManager.sounds CallManager.logged
  rw [List.filterMap_append]
  cases h : e.sound <;> simp [h]

/-- What is told of a call: its state, or that it is gone. -/
def CallBase.news (c : CallBase) : Int × Option TelCallState :=
  (c.callId, if c.callState = .disconnected then none else some c.callState)

/-- What a broadcast tells the application; the mark of an answer tells nothing. -/
def Event.told : Event → Option (Int × Option TelCallState)
  | .callStateUpdated call _ next =>
    if next = .answered ∨ call.callState = .answered then none else some call.news
  | _ => none

/-- What the application was told so far. -/
def CallManager.told (s : CallManager) : List (Int × Option TelCallState) :=
  s.log.filterMap Event.told

theorem CallManager.told_logged (s : CallManager) (e : Event) :
    (s.logged e).told = s.told ++ e.told.toList := by
  unfold CallManager.told CallManager.logged
  rw [List.filterMap_append]
  cases h : e.told <;> simp [h]

/-- The flags, the tasks and requests of the main loop and the tones are what they were, nothing
was asked of the audio implementation, and the application was told nothing. -/
structure Aside (s s' : CallManager) : Prop where
  helper : s'.helper = s.helper
  pendingHangupTaskId : s'.pendingHangupTaskId = s.pendingHangupTaskId
  delayed : s'.delayed = s.delayed
  lastTaskId : s'.lastTaskId = s.lastTaskId
  audio : s'.audio = s.audio
  requests : s'.requests = s.requests
  sounds : s'.sounds = s.sounds
  told : s'.told = s.told

/-- And so are the call objects and the conferences. -/
structure Outside (s s' : CallManager) : Prop extends Aside s s' where
  calls : s'.calls = s.calls
  csConference : s'.csConference = s.csConference
  imsConference : s'.imsConference = s.imsConference

/-- An event that announces nothing of the table, is not heard and tells the application nothing. -/
def Event.IsNote : Event → Prop
  | .callAdded .. | .callStateUpdated .. | .audio .. | .command (.dial _) _ => False
  | _ => True

/-- What is looked at of a call object. -/
def CallBase.face (c : CallBase) :=
  ((c.callId, c.callType, c.isIMSCall, c.direction, c.isEcc, c.index, c.slotId),
    (c.callState, c.callRunningState, c.conferenceState, c.policyFlag, c.videoState,
      c.accountNumber))

/-- A call object keeps its id and its policy flags, and does not obtain the state of a member of an
active conference. -/
structure CallBase.Mild (c c' : CallBase) : Prop where
  callId : c'.callId = c.callId
  policyFlag : c'.policyFlag = c.policyFlag
  conferenceState : c.conferenceState ≠ .active → c'.conferenceState ≠ .active

/-- And it keeps its class, its type and its direction. -/
structure CallBase.Milder (c c' : CallBase) : Prop extends c.Mild c' where
  isIMSCall : c'.isIMSCall = c.isIMSCall
  callType : c'.callType = c.callType
  direction : c'.direction = c.direction

/-- A flag is dropped, if anything, and no dial begins. -/
structure CallRequestEventHandlerHelper.Drops (h h' : CallRequestEventHandlerHelper) : Prop where
  dialing : h.isDialingCallProcessing = false → h'.isDialingCallProcessing = false
  mo : h'.pendingMo = true → h.pendingMo = true ∧ h'.pendingMoCallId = h.pendingMoCallId
  hangup : h'.pendingHangup = true →
    h.pendingHangup = true ∧ h'.pendingHangupCallId = h.pendingHangupCallId

/-! ## What does not matter -/

section Classes
variable (R)

/-- What the stack is asked does not matter, nor how a post went. -/
class Asking : Prop extends Std.Refl R, IsTrans CallManager R where
  asked (s : CallManager) (q : Query) (answer : Bool) : R s (s.logged (.query q answer))
  posted (s : CallManager) (ret : RetCode) : R s (s.logged (.posted ret))

/-- Notes do not matter, nor what call objects do behind their faces. -/
class Meek : Prop extends Std.Refl R, IsTrans CallManager R where
  note (s : CallManager) {e : Event} : e.IsNote → R s (s.logged e)
  object {s : CallManager} {p : Ref} {f : CallBase → CallBase} :
    (f (s.call p)).face = (s.call p).face → R s (s.updateCall p f)

/-- Neither does the state of a call object, nor a new one. -/
class Lenient : Prop extends Meek R where
  change {s : CallManager} {p : Ref} {f : CallBase → CallBase} :
    (s.call p).Milder (f (s.call p)) → R s (s.updateCall p f)
  create {s : CallManager} {c : CallBase} : c.conferenceState ≠ .active → c.policyFlag = 0 →
    c.isIMSCall = decide (c.callType = .ims) → R s { s with calls := s.calls.alloc c }
  count (s : CallManager) (callId : Int) : R s { s with callId := callId }

/-- What the log and the table go through does not matter, nor what single call objects do. -/
class Bare : Prop extends Std.Refl R, IsTrans CallManager R where
  outside {s s' : CallManager} : Outside s s' → R s s'
  object {s : CallManager} {p : Ref} {f : CallBase → CallBase} :
    (s.call p).Mild (f (s.call p)) → R s (s.updateCall p f)
  create {s : CallManager} {c : CallBase} : c.conferenceState ≠ .active → c.policyFlag = 0 →
    R s { s with calls := s.calls.alloc c }

/-- Neither do the conferences and the replacement of a call object. -/
class Plain : Prop extends Bare R where
  launch (env : Env) (p : Ref) : Moves R (launchConference env p)
  exit (env : Env) (p : Ref) : Moves R (exitConference env p)
  hold (env : Env) (p : Ref) : Moves R (holdConference env p)
  failed (env : Env) (p : Ref) : Moves R (handleCombineConferenceFailEvent env p)
  refresh (env : Env) (p : Ref) (info : CallDetailInfo) : Moves R (refreshCall env p info)

/-- That the ringtone stops does not matter. -/
class Muting : Prop where
  muted (env : Env) : Moves R (stopRingtone env)

/-- What the audio manager does when it is told something is no objection. -/
class Audible : Prop extends Muting R where
  heard (env : Env) (prior next : TelCallState) : Moves R (audioCallStateUpdated env prior next)

/-- The tones, and what is asked of the audio implementation, do not matter at all. -/
class Toneless : Prop extends Std.Refl R, IsTrans CallManager R where
  tones (s : CallManager) (f : AudioControl → AudioControl) : R s { s with audio := f s.audio }
  sound (s : CallManager) (r : AudioRequest) (reply : Option Int) : R s (s.logged (.audio r reply))

/-- That a call is answered may be told. -/
class Answering : Prop where
  answered (env : Env) (p : Ref) (prior : TelCallState) :
    Moves R (notifyCallStateUpdated env p prior .answered)

/-- What the application is told is no objection. -/
class Outspoken : Prop extends Plain R, Audible R where
  broadcast (c : CallBase) (prior next : TelCallState) :
    Moves R (emit (.callStateUpdated c prior next))

/-- The tasks do not matter, nor that a dial is over. -/
class Tasking : Prop where
  tasks (s : CallManager) (taskId lastTaskId : Nat) (delayed : List (Nat × DelayedTask)) :
    R s { s with pendingHangupTaskId := taskId, delayed := delayed, lastTaskId := lastTaskId }
  restoreTask (s : CallManager) (id : Nat) :
    R s { s with helper := { s.helper with restoreTaskId := id } }
  dialed (s : CallManager) :
    R s { s with helper := { s.helper with isDialingCallProcessing := false } }

/-- The tasks do not matter, nor that flags are dropped. -/
class Easygoing : Prop where
  tasks (s : CallManager) (taskId lastTaskId : Nat) (delayed : List (Nat × DelayedTask)) :
    R s { s with pendingHangupTaskId := taskId, delayed := delayed, lastTaskId := lastTaskId }
  drops {s : CallManager} {helper : CallRequestEventHandlerHelper} :
    s.helper.Drops helper → R s { s with helper := helper }

/-- The flags do not matter, as long as no dial begins. -/
class Patient : Prop extends Easygoing R where
  flags {s : CallManager} {helper : CallRequestEventHandlerHelper} :
    helper.isDialingCallProcessing = s.helper.isDialingCallProcessing →
      R s { s with helper := helper }

/-- What `HangUpCall` does is no objection. -/
class Ending : Prop where
  hangUp (env : Env) (callId : Int) : Moves R (CallControlManager.hangUpCall env callId)

/-- What the handlers of reports do to the flags and the tasks is no objection. -/
class Clearing : Prop extends Plain R where
  clear (env : Env) (p : Ref) : Moves R (clearPendingState env p)
  pendingMo (pendingMo : Bool) (callId : Int) : Moves R (setPendingMo pendingMo callId)
  restore : Moves R (restoreDialingFlag false)
  remove : Moves R removeEventHandlerTask

/-- Neither is what a dial does to them. -/
class Starting : Prop extends Clearing R where
  start : Moves R (restoreDialingFlag true)
  processing (env : Env) : Moves R (setDialingCallProcessing env)

/-- The flags and the tasks do not matter at all. -/
class Timeless : Prop extends Plain R where
  timers (s : CallManager) (helper : CallRequestEventHandlerHelper) (taskId lastTaskId : Nat)
    (delayed : List (Nat × DelayedTask)) :
    R s { s with
      helper := helper, pendingHangupTaskId := taskId, delayed := delayed
      lastTaskId := lastTaskId }

/-- The policy flags of a call object do not matter. -/
class Flagging : Prop where
  flag (p : Ref) (flag : Nat) : Moves R (modifyCall p (CallBase.setPolicyFlag flag))

/-- What is posted to the main loop does not matter. -/
class Posting : Prop where
  requests (s : CallManager) (requests : List Request) : R s { s with requests := requests }

end Classes

/-! ## Questions -/

instance [Std.Refl R] (p : Ref) : Moves R (getCall p) := inferInstanceAs (Moves R (Prog.gets _))

section Asking
variable [Asking R]

instance (q : Query) : Moves R (ask env q) := ⟨fun s => Asking.asked s q _⟩

instance [Posting R] (r : Request) : Moves R (postRequest env r) := by
  refine ⟨fun s => ?_⟩
  unfold postRequest
  dsimp only
  split
  · exact trans_of R (Asking.posted s _) (Posting.requests _ _)
  · exact Asking.posted s _

instance (isEcc : Bool) (slotId : Int) : Moves R (hasNormalCall env isEcc slotId) := by
  unfold hasNormalCall; infer_instance

instance (extras : DialExtras) (isEcc : Bool) : Moves R (dialPolicy env extras isEcc) := by
  unfold dialPolicy; infer_instance

instance (extras : DialExtras) (isEcc : Bool) : Moves R (canDial env extras isEcc) := by
  unfold canDial; infer_instance

end Asking

/-! ## Tones -/

instance [Muting R] : Moves R (stopRingtone env) := Muting.muted env

instance [Audible R] (prior next : TelCallState) : Moves R (audioCallStateUpdated env prior next) :=
  Audible.heard env prior next

section Toneless
variable [Toneless R]

instance (r : AudioRequest) : Moves R (requestAudio env r) := ⟨fun s => Toneless.sound s r _⟩

instance (f : AudioControl → AudioControl) : Moves R (setAudio f) :=
  .of_modify fun s => Toneless.tones s f

instance : Moves R (startRingtone env) := by unfold startRingtone; infer_instance

instance : Moves R (stopRingtone env) := by unfold stopRingtone; infer_instance

instance : Moves R (playWaitingTone env) := by unfold playWaitingTone; infer_instance

instance : Moves R (stopWaitingTone env) := by unfold stopWaitingTone; infer_instance

instance (active : Bool) : Moves R (setCallAudioActive env active) := by
  unfold setCallAudioActive; infer_instance

instance : Moves R releaseAll := by unfold releaseAll; infer_instance

instance : Audible R where
  heard env prior next := by
    unfold audioCallStateUpdated
    split <;> infer_instance
  muted _ := inferInstance

end Toneless

/-! ## Flags and tasks -/

section Tasking
variable [Tasking R]

instance (id : Nat) :
    Moves R (Prog.modify fun s : CallManager => { s with pendingHangupTaskId := id }) :=
  .of_modify fun s => Tasking.tasks s id s.lastTaskId s.delayed

instance (id : Nat) : Moves R (modifyHelper fun h => { h with restoreTaskId := id }) :=
  .of_modify fun s => Tasking.restoreTask s id

instance (id : Nat) : Moves R (removeAsyncTask id) :=
  .of_modify fun s => Tasking.tasks s s.pendingHangupTaskId s.lastTaskId _

instance : Moves R (restoreDialingFlag false) := .of_modify fun s => Tasking.dialed s

variable [Asking R]

instance (t : DelayedTask) : Moves R (postDelayed env t) := by
  refine ⟨fun s => ?_⟩
  unfold postDelayed
  dsimp only
  split
  · exact trans_of R (Asking.posted s _)
      (Tasking.tasks _ s.pendingHangupTaskId (s.lastTaskId + 1) _)
  · exact Asking.posted s _

instance : Moves R removeEventHandlerTask := by unfold removeEventHandlerTask; infer_instance

instance : Moves R removePendingHangupProtectTask := by
  unfold removePendingHangupProtectTask; infer_instance

instance (ret : RetCode) : Moves R (abandonDial ret) := by unfold abandonDial; infer_instance

instance : Moves R (setDialingCallProcessing env) := by
  unfold setDialingCallProcessing; infer_instance

instance (callId : Int) : Moves R (CallControlManager.postPendingHangupProtectTask env callId) := by
  unfold CallControlManager.postPendingHangupProtectTask; infer_instance

end Tasking

section Easygoing
variable [Easygoing R]

instance : Tasking R where
  tasks := Easygoing.tasks
  restoreTask _ _ := Easygoing.drops ⟨fun h => h, fun h => ⟨h, rfl⟩, fun h => ⟨h, rfl⟩⟩
  dialed _ := Easygoing.drops ⟨fun _ => rfl, fun h => ⟨h, rfl⟩, fun h => ⟨h, rfl⟩⟩

instance (callId : Int) : Moves R (setPendingMo false callId) := .of_modify fun _ =>
  Easygoing.drops ⟨fun h => h, fun h => absurd h Bool.false_ne_true, fun h => ⟨h, rfl⟩⟩

instance (callId : Int) : Moves R (setPendingHangup false callId) := .of_modify fun _ =>
  Easygoing.drops ⟨fun h => h, fun h => ⟨h, rfl⟩, fun h => absurd h Bool.false_ne_true⟩

end Easygoing

section Patient
variable [Patient R]

instance (pendingMo : Bool) (callId : Int) : Moves R (setPendingMo pendingMo callId) :=
  .of_modify fun _ => Patient.flags rfl

instance (pendingHangup : Bool) (callId : Int) : Moves R (setPendingHangup pendingHangup callId) :=
  .of_modify fun _ => Patient.flags rfl

instance [Asking R] [Posting R] : Ending R where
  hangUp env callId := by unfold CallControlManager.hangUpCall; infer_instance

end Patient

/-! ## Commands and notes -/

section Meek
variable [Meek R]

instance : Asking R where
  asked s _ _ := Meek.note s trivial
  posted s _ := Meek.note s trivial

theorem meek_modifyCall {f : CallBase → CallBase} (hf : ∀ c, (f c).face = c.face) :
    Moves R (modifyCall p f) := .of_modify fun _ => Meek.object (hf _)

theorem meek_emit {e : Event} (he : e.IsNote) : Moves R (emit e) :=
  .of_modify fun s => Meek.note s he

instance (c : CallBase) : Moves R (emit (.newCallCreated c)) := meek_emit trivial

instance (c : CallBase) : Moves R (emit (.incomingCallActivated c)) := meek_emit trivial

instance (c : CallBase) (isSendSms : Bool) : Moves R (emit (.incomingCallHungUp c isSendSms)) :=
  meek_emit trivial

instance (reason : Int) : Moves R (emit (.callDestroyed reason)) := meek_emit trivial

instance (eventId : CallAbilityEventId) (phoneNum : Bytes) :
    Moves R (emit (.callEventUpdated eventId phoneNum)) := meek_emit trivial

/-- Any command but a dial. -/
theorem meek_sendCommand {c : Command} (hc : ∀ reply, (Event.command c reply).IsNote) :
    Moves R (sendCommand env c) := ⟨fun s => Meek.note s (hc _)⟩

instance : Moves R (hangUpCall env p) := by
  have (info : CellularCallInfo) (type : CallSupplementType) :
      Moves R (sendCommand env (.hangUp info type)) := meek_sendCommand fun _ => trivial
  unfold hangUpCall
  infer_instance

instance : Moves R (rejectCall env p) := by
  have (info : CellularCallInfo) (type : CallSupplementType) :
      Moves R (sendCommand env (.hangUp info type)) := meek_sendCommand fun _ => trivial
  have : Moves R (modifyCall p CallBase.rejectCallBase) := meek_modifyCall fun _ => rfl
  unfold rejectCall
  infer_instance

instance (videoState : Int) (isRTT : Bool) : Moves R (answerCall env p videoState isRTT) := by
  have (info : CellularCallInfo) : Moves R (sendCommand env (.answer info)) :=
    meek_sendCommand fun _ => trivial
  unfold answerCall
  infer_instance

instance : Moves R (holdCall env p) := by
  have (info : CellularCallInfo) : Moves R (sendCommand env (.holdCall info)) :=
    meek_sendCommand fun _ => trivial
  unfold holdCall
  infer_instance

instance : Moves R (unHoldCall env p) := by
  have (info : CellularCallInfo) : Moves R (sendCommand env (.unHoldCall info)) :=
    meek_sendCommand fun _ => trivial
  unfold unHoldCall
  infer_instance

instance : Moves R (switchCall env p) := by
  have (info : CellularCallInfo) : Moves R (sendCommand env (.switchCall info)) :=
    meek_sendCommand fun _ => trivial
  unfold switchCall
  infer_instance

instance : Moves R (notifyNewCallCreated p) := by unfold notifyNewCallCreated; infer_instance

instance : Moves R (notifyIncomingCallAnswered p) := by
  unfold notifyIncomingCallAnswered; infer_instance

instance : Moves R (setOriginalCallTypeForActiveState p) :=
  meek_modifyCall fun c => by split_ifs <;> rfl

instance : Moves R (setOriginalCallTypeForDisconnectState p) :=
  meek_modifyCall fun c => by split_ifs <;> rfl

instance (reason : Int) (message : Bytes) :
    Moves R (refreshCallDisconnectReason p reason message) :=
  meek_modifyCall fun c => by split_ifs <;> rfl

instance (reason : Int) : Moves R (handleDisconnectedCause reason) := by
  unfold handleDisconnectedCause; infer_instance

instance [Easygoing R] : Moves R (clearPendingState env p) := by
  unfold clearPendingState; infer_instance

instance [Answering R] (prior : TelCallState) :
    Moves R (notifyCallStateUpdated env p prior .answered) := Answering.answered env p prior

instance : Moves R (eccDialPolicy env) := by unfold eccDialPolicy; infer_instance

instance (number : Bytes) (info : DialParaInfo) : Moves R (handleDialingInfo env number info) := by
  unfold handleDialingInfo; infer_instance

/-! ### Requests -/

instance (callId videoState : Int) (isRTT : Bool) :
    Moves R (answerRequest env callId videoState isRTT) := by
  have (p : Ref) : Moves R (modifyCall p fun c => { c with answerVideoState := videoState }) :=
    meek_modifyCall fun _ => rfl
  unfold answerRequest
  infer_instance

instance [Flagging R] (callId : Int) : Moves R (hangUpRequest env callId) := by
  have := Flagging.flag (R := R)
  unfold hangUpRequest
  infer_instance

instance (callId : Int) : Moves R (holdRequest env callId) := by unfold holdRequest; infer_instance

instance (callId : Int) : Moves R (unHoldRequest env callId) := by
  have (p : Ref) : Moves R (modifyCall p fun c => { c with canUnHoldState := true }) :=
    meek_modifyCall fun _ => rfl
  unfold unHoldRequest
  infer_instance

instance (callId : Int) : Moves R (switchRequest env callId) := by
  unfold switchRequest; infer_instance

section Muting
variable [Muting R]

instance (isSendSms : Bool) : Moves R (notifyIncomingCallRejected env p isSendSms) := by
  unfold notifyIncomingCallRejected; infer_instance

instance (callId : Int) (isSendSms : Bool) : Moves R (rejectRequest env callId isSendSms) := by
  have (p : Ref) : Moves R (modifyCall p fun c => { c with canUnHoldState := false }) :=
    meek_modifyCall fun _ => rfl
  unfold rejectRequest
  infer_instance

instance [Flagging R] (r : Request) : Moves R (runRequest env r) := by
  unfold runRequest
  split <;> infer_instance

instance [Flagging R] [Posting R] : Moves R (nextRequest env) := by
  have : Moves R (Prog.modify fun s : CallManager => { s with requests := s.requests.tail }) :=
    .of_modify fun s => Posting.requests s s.requests.tail
  unfold nextRequest
  infer_instance

end Muting

/-! ### Operations -/

section Posting
variable [Posting R]

instance (callId : Int) (rejectWithMessage : Bool) :
    Moves R (CallControlManager.rejectCall env callId rejectWithMessage) := by
  unfold CallControlManager.rejectCall
  refine Moves.bind inferInstance fun call => ?_
  cases call <;> dsimp only <;> infer_instance

instance (callId : Int) : Moves R (CallControlManager.holdCall env callId) := by
  unfold CallControlManager.holdCall; infer_instance

instance (callId : Int) : Moves R (CallControlManager.unHoldCall env callId) := by
  unfold CallControlManager.unHoldCall; infer_instance

instance (callId : Int) : Moves R (CallControlManager.switchCall env callId) := by
  unfold CallControlManager.switchCall; infer_instance

instance [Answering R] (callId videoState : Int) (isRTT : Bool) :
    Moves R (CallControlManager.answerCall env callId videoState isRTT) := by
  have (p : Ref) : Moves R (modifyCall p fun c => { c with isAnswered := true }) :=
    meek_modifyCall fun _ => rfl
  unfold CallControlManager.answerCall
  refine Moves.bind inferInstance fun call => ?_
  cases call <;> dsimp only <;> infer_instance

instance [Ending R] (callId : Int) : Moves R (CallControlManager.hangUpCall env callId) :=
  Ending.hangUp env callId

instance [Ending R] (states : List CallRunningState) :
    Moves R (CallControlManager.endFirstCall env states) := by
  induction states with
  | nil => exact inferInstanceAs (Moves R (pure RetCode.success))
  | cons state states ih =>
    unfold CallControlManager.endFirstCall
    refine Moves.bind inferInstance fun call => ?_
    cases call <;> dsimp only <;> infer_instance

instance [Ending R] : Moves R (CallControlManager.endCall env) := by
  unfold CallControlManager.endCall; infer_instance

end Posting

end Meek

/-! ## Call objects -/

section Lenient
variable [Lenient R]

theorem lenient_modifyCall {f : CallBase → CallBase} (hf : ∀ c : CallBase, c.Milder (f c)) :
    Moves R (modifyCall p f) := .of_modify fun _ => Lenient.change (hf _)

instance : Moves R (dialingProcess p) := by
  have : Moves R (modifyCall p fun c => { c with callRunningState := .connecting }) :=
    lenient_modifyCall fun _ => ⟨⟨rfl, rfl, id⟩, rfl, rfl, rfl⟩
  unfold dialingProcess
  infer_instance

instance : Moves R (incomingCallBase p) :=
  lenient_modifyCall fun _ => ⟨⟨rfl, rfl, id⟩, rfl, rfl, rfl⟩

/-- No change of its state makes a call a member of an active conference, or another call. -/
theorem setTelCallState_milder (c : CallBase) (now : Int) (next : TelCallState) :
    c.Milder (c.setTelCallState now next).2 := by
  unfold CallBase.setTelCallState CallBase.stateChangesTo
  split
  · exact ⟨⟨rfl, rfl, id⟩, rfl, rfl, rfl⟩
  cases next
  all_goals
    simp only [CallBase.stateChangesToActive, CallBase.stateChangesToHolding,
      CallBase.stateChangesToDisconnected, CallBase.stateChangesToDisconnecting,
      CallBase.stateChangesToDialing, CallBase.stateChangesToIncoming,
      CallBase.stateChangesToWaiting, CallBase.stateChangesToAlerting]
    repeat' split
    all_goals first
      | exact ⟨⟨rfl, rfl, id⟩, rfl, rfl, rfl⟩
      | exact ⟨⟨rfl, rfl, fun _ => nofun⟩, rfl, rfl, rfl⟩

instance (next : TelCallState) : Moves R (setTelCallState env p next) :=
  ⟨fun s => Lenient.change (f := fun _ => ((s.call p).setTelCallState (env.time s.log) next).2)
    (setTelCallState_milder _ _ next)⟩

instance (callId : Int) (next : TelCallState) :
    Moves R (updateOneCallObjectByCallId env callId next) := by
  refine ⟨fun s => ?_⟩
  unfold updateOneCallObjectByCallId
  exact Moves.rel s

instance : Moves R getNewCallId := ⟨fun s => Lenient.count s (s.callId + 1)⟩

instance (info : CallDetailInfo) (dir : CallDirection) : Moves R (packParaInfo info dir) := by
  unfold packParaInfo; infer_instance

theorem lenient_newCall {c : CallBase} (hc : c.conferenceState ≠ .active) (hflag : c.policyFlag = 0)
    (hclass : c.isIMSCall = decide (c.callType = .ims)) : Moves R (newCall c) :=
  ⟨fun _ => Lenient.create hc hflag hclass⟩

instance (info : CallDetailInfo) (dir : CallDirection) : Moves R (createNewCall env info dir) := by
  have (para : DialParaInfo) (dialScene : DialScene) (now : Int) : Moves R (newCall
      { CallBase.ofParaInfo para dir dialScene with
        isEccContact := dialScene = .emergency
        originalCallType := info.originalCallType
        callCreateTime := max now 0 }) := lenient_newCall nofun rfl rfl
  unfold createNewCall
  infer_instance

instance : Moves R (handleRejectCall env p) := by unfold handleRejectCall; infer_instance

instance : Moves R (filterResultsDispose env p) := by
  have : Moves R (modifyCall p fun c => { c with isApCauseReported := true }) :=
    meek_modifyCall fun _ => rfl
  unfold filterResultsDispose
  infer_instance

end Lenient

/-! ## The table and the log -/

section Bare
variable [Bare R]

theorem outside_logged (s : CallManager) {e : Event} (he : e.sound = none) (ht : e.told = none) :
    Outside s (s.logged e) :=
  ⟨⟨rfl, rfl, rfl, rfl, rfl, rfl, by simp [s.sounds_logged, he], by simp [s.told_logged, ht]⟩, rfl,
    rfl, rfl⟩

theorem outside_note (s : CallManager) {e : Event} (he : e.IsNote) : Outside s (s.logged e) := by
  cases e with
  | callStateUpdated => exact he.elim
  | audio => exact he.elim
  | _ => exact outside_logged s rfl rfl

/-- A call object that keeps its face is mild. -/
theorem CallBase.mild_of_face {c c' : CallBase} (h : c'.face = c.face) : c.Mild c' := by
  simp only [CallBase.face, Prod.mk.injEq] at h
  obtain ⟨⟨hid, -⟩, -, -, hconference, hflag, -⟩ := h
  exact ⟨hid, hflag, fun hne => by rwa [hconference]⟩

instance : Lenient R where
  note s _ he := Bare.outside (outside_note s he)
  object hf := Bare.object (CallBase.mild_of_face hf)
  change hf := Bare.object hf.toMild
  create hc hflag _ := Bare.create hc hflag
  count _ _ := Bare.outside ⟨⟨rfl, rfl, rfl, rfl, rfl, rfl, rfl, rfl⟩, rfl, rfl, rfl⟩

theorem bare_modifyCall {f : CallBase → CallBase} (hf : ∀ c : CallBase, c.Mild (f c)) :
    Moves R (modifyCall p f) := .of_modify fun _ => Bare.object (hf _)

instance (c : Command) : Moves R (sendCommand env c) :=
  ⟨fun s => Bare.outside (outside_logged s rfl rfl)⟩

instance : Moves R (setTelConferenceState p .idle) :=
  bare_modifyCall fun _ => ⟨rfl, rfl, fun _ => nofun⟩

instance : Moves R (getSubCallIdList env p) := by
  refine ⟨fun s => Bare.outside ?_⟩
  unfold getSubCallIdList
  rw [getCall, Prog.bind_apply, Prog.gets_apply, onConference]
  dsimp only
  unfold CallManager.setConference CallManager.conference
  split <;> exact ⟨⟨rfl, rfl, rfl, rfl, rfl, rfl, rfl, rfl⟩, rfl, rfl, rfl⟩

instance (callId : Int) : Moves R (deleteOneCallObject callId) :=
  .of_modify fun _ => Bare.outside ⟨⟨rfl, rfl, rfl, rfl, rfl, rfl, rfl, rfl⟩, rfl, rfl, rfl⟩

instance : Moves R (addOneCallObject p) := by
  refine ⟨fun s => ?_⟩
  unfold addOneCallObject
  split_ifs
  · exact refl_of R s
  · exact refl_of R s
  · refine Bare.outside ⟨⟨rfl, rfl, rfl, rfl, rfl, rfl, ?_, ?_⟩, rfl, rfl, rfl⟩
    · exact (CallManager.sounds_logged _ _).trans (List.append_nil _)
    · exact (CallManager.told_logged _ _).trans (List.append_nil _)

end Bare

section Plain
variable [Plain R]

instance : Moves R (launchConference env p) := Plain.launch env p

instance : Moves R (exitConference env p) := Plain.exit env p

instance : Moves R (holdConference env p) := Plain.hold env p

instance : Moves R (handleCombineConferenceFailEvent env p) := Plain.failed env p

instance (info : CallDetailInfo) : Moves R (refreshCall env p info) := Plain.refresh env p info

instance (info : CallDetailInfo) : Moves R (refreshCallIfNecessary env p info) := by
  have h1 : Moves R (modifyCall p fun c => { c with newCallUseBox := info.newCallUseBox }) :=
    bare_modifyCall fun _ => ⟨rfl, rfl, id⟩
  have h2 : Moves R (modifyCall p fun c =>
      if c.callType = .ims then { c with videoState := info.callMode } else c) :=
    bare_modifyCall fun _ => by split_ifs <;> exact ⟨rfl, rfl, id⟩
  have h3 : Moves R (modifyCall p fun c => { c with imsDomain := info.imsDomain }) :=
    bare_modifyCall fun _ => ⟨rfl, rfl, id⟩
  have h4 : Moves R (modifyCall p fun c =>
      if c.callType = .ims then { c with crsType := info.crsType } else c) :=
    bare_modifyCall fun _ => by split_ifs <;> exact ⟨rfl, rfl, id⟩
  unfold refreshCallIfNecessary
  infer_instance

instance (slotId : Int) (callVec : List CallDetailInfo) :
    Moves R (updateCallDetailsInfo slotId callVec) :=
  .of_modify fun _ => Bare.outside ⟨⟨rfl, rfl, rfl, rfl, rfl, rfl, rfl, rfl⟩, rfl, rfl, rfl⟩

instance (extras : DialExtras) (accountNumber : Bytes) (isEcc : Bool) :
    Moves R (CallControlManager.packageDialInformation extras accountNumber isEcc) :=
  .of_modify fun _ => Bare.outside ⟨⟨rfl, rfl, rfl, rfl, rfl, rfl, rfl, rfl⟩, rfl, rfl, rfl⟩

end Plain

/-! ## Broadcasts -/

section Outspoken
variable [Outspoken R]

instance (c : CallBase) (prior next : TelCallState) :
    Moves R (emit (.callStateUpdated c prior next)) :=
  Outspoken.broadcast c prior next

instance (prior next : TelCallState) : Moves R (notifyCallStateUpdated env p prior next) := by
  unfold notifyCallStateUpdated; infer_instance

instance : Answering R where
  answered _ _ _ := inferInstance

instance (next : TelCallState) : Moves R (updateCallState env p next) := by
  unfold updateCallState; infer_instance

instance (calls : List Ref) : Moves R (setConferenceCall env calls) := by
  unfold setConferenceCall; infer_instance

instance (callIdList : List Int) (previousState : CallRunningState) (priorState : TelCallState) :
    Moves R (handleHoldCallOrAutoAnswerCall env p callIdList previousState priorState) := by
  unfold handleHoldCallOrAutoAnswerCall; infer_instance

instance (next : TelCallState) : Moves R (finalizeIncomingState env p next) := by
  unfold finalizeIncomingState; infer_instance

end Outspoken

/-! ## Reports -/

section Clearing
variable [Clearing R]

instance : Moves R (clearPendingState env p) := Clearing.clear env p

instance (pendingMo : Bool) (callId : Int) : Moves R (setPendingMo pendingMo callId) :=
  Clearing.pendingMo pendingMo callId

instance : Moves R (restoreDialingFlag false) := Clearing.restore

instance : Moves R removeEventHandlerTask := Clearing.remove

instance (info : CallDetailInfo) : Moves R (updateDialingCallInfo env info) := by
  have (p : Ref) : Moves R (modifyCall p fun c => { c with index := info.index }) :=
    bare_modifyCall fun _ => ⟨rfl, rfl, id⟩
  have (p : Ref) : Moves R (modifyCall p fun c => { c with slotId := info.accountId }) :=
    bare_modifyCall fun _ => ⟨rfl, rfl, id⟩
  have (p : Ref) : Moves R (modifyCall p fun c => { c with videoState := info.callMode }) :=
    bare_modifyCall fun _ => ⟨rfl, rfl, id⟩
  have (p : Ref) : Moves R (modifyCall p fun c => { c with callType := info.callType }) :=
    bare_modifyCall fun _ => ⟨rfl, rfl, id⟩
  have (p : Ref) (oriNum : Bytes) :
      Moves R (modifyCall p fun c => { c with accountNumber := oriNum }) :=
    bare_modifyCall fun _ => ⟨rfl, rfl, id⟩
  have (p : Ref) : Moves R (modifyCall p fun c => { c with imsDomain := info.imsDomain }) :=
    bare_modifyCall fun _ => ⟨rfl, rfl, id⟩
  unfold updateDialingCallInfo
  refine Moves.bind inferInstance fun known => ?_
  cases known with
  | some p => dsimp only; infer_instance
  | none =>
    refine Moves.bind inferInstance fun pending => ?_
    cases pending with
    | none => dsimp only; infer_instance
    | some p =>
      refine Moves.bind inferInstance fun c => Moves.bind inferInstance fun q =>
        Moves.bind inferInstance fun _ => Moves.bind inferInstance fun _ =>
          Moves.bind inferInstance fun _ => Moves.bind inferInstance fun _ => ?_
      infer_instance

variable [Outspoken R]

instance (info : CallDetailInfo) : Moves R (addDialingCall env info) := by
  have (p : Ref) : Moves R (modifyCall p fun c => { c with phoneOrWatch := 1 }) :=
    bare_modifyCall fun _ => ⟨rfl, rfl, id⟩
  unfold addDialingCall
  refine Moves.bind inferInstance fun created => ?_
  cases created <;> dsimp only <;> infer_instance

instance (info : CallDetailInfo) : Moves R (dialingHandle env info) := by
  unfold dialingHandle; infer_instance

instance (info : CallDetailInfo) : Moves R (refreshDialingStateByOtherState env info) := by
  unfold refreshDialingStateByOtherState
  refine Moves.bind inferInstance fun initCall => ?_
  cases initCall <;> dsimp only <;> infer_instance

instance (info : CallDetailInfo) : Moves R (reportedCall env info) := by
  unfold reportedCall
  refine Moves.bind inferInstance fun found => ?_
  cases found <;> dsimp only <;> infer_instance

instance (info : CallDetailInfo) : Moves R (activeHandle env info) := by
  have (p : Ref) : Moves R (modifyCall p fun c => { c with canSwitchCallState := true }) :=
    bare_modifyCall fun _ => ⟨rfl, rfl, id⟩
  unfold activeHandle
  refine Moves.bind inferInstance fun found => ?_
  cases found <;> dsimp only <;> infer_instance

instance (info : CallDetailInfo) : Moves R (holdingHandle env info) := by
  unfold holdingHandle
  refine Moves.bind inferInstance fun found => ?_
  cases found <;> dsimp only <;> infer_instance

instance (info : CallDetailInfo) : Moves R (alertHandle env info) := by
  unfold alertHandle
  refine Moves.bind inferInstance fun found => ?_
  cases found <;> dsimp only <;> infer_instance

instance (info : CallDetailInfo) : Moves R (disconnectingHandle env info) := by
  unfold disconnectingHandle
  refine Moves.bind inferInstance fun found => ?_
  cases found <;> dsimp only <;> infer_instance

instance (info : CallDetailInfo) : Moves R (disconnectCall env p info) := by
  unfold disconnectCall
  refine Moves.bind inferInstance fun p => Moves.bind inferInstance fun _ =>
    Moves.bind inferInstance fun _ => Moves.bind inferInstance fun _ =>
      Moves.bind inferInstance fun callIdList => Moves.bind inferInstance fun c =>
        Moves.bind inferInstance fun _ => ?_
  infer_instance

instance (info : CallDetailInfo) : Moves R (disconnectedHandle env info) := by
  unfold disconnectedHandle
  refine Moves.bind inferInstance fun found => ?_
  cases found <;> dsimp only <;> infer_instance

instance : Moves R (dealFailDial env p) := by unfold dealFailDial; infer_instance

instance (info : CallDetailInfo) : Moves R (refreshOldCall env info) := by
  unfold refreshOldCall
  refine Moves.bind inferInstance fun initCall => Moves.bind inferInstance fun _ =>
    Moves.bind inferInstance fun found => ?_
  cases found <;> dsimp only <;> infer_instance

instance (info : CallDetailInfo) : Moves R (incomingHandle env info) := by
  unfold incomingHandle
  refine Moves.bind inferInstance fun old => ?_
  have (created : Option Ref) : Moves R (match created with
      | none => pure RetCode.callErrCallObjectIsNull
      | some p => do
        let ret ← addOneCallObject p
        if ret ≠ .success then do
          let _ ← handleRejectCall env p
          pure ret
        else do
          notifyNewCallCreated p
          finalizeIncomingState env p info.state) := by
    cases created <;> dsimp only <;> infer_instance
  infer_instance

/-- What one report does. -/
instance (info : CallDetailInfo) : Moves R (handleCallReportInfo env info) := by
  unfold handleCallReportInfo
  split <;> infer_instance

instance (slotId : Int) (callVec : List CallDetailInfo) :
    Moves R (handleCallsReportInfo env slotId callVec) := by
  have : Moves R (Prog.modify fun s : CallManager =>
      { s with tmpCallDetailsInfo := Function.update s.tmpCallDetailsInfo slotId callVec }) :=
    .of_modify fun _ => Bare.outside ⟨⟨rfl, rfl, rfl, rfl, rfl, rfl, rfl, rfl⟩, rfl, rfl, rfl⟩
  have (recorded : List CallDetailInfo) (it : CallDetailInfo) : Moves R
      (match recorded.find? fun it1 => it.index = it1.index with
        | some it1 => Prog.when (hasChanged it it1) (handleCallReportInfo env it).ignore
        | none => (handleCallReportInfo env it).ignore) := by
    split <;> infer_instance
  unfold handleCallsReportInfo
  infer_instance

instance (eventId : RequestResultEventId) :
    Moves R (handleEventResultReportInfo env eventId) := by
  unfold handleEventResultReportInfo
  refine Moves.bind inferInstance fun dialing => Moves.bind inferInstance fun _ => ?_
  split <;> infer_instance

instance (info : DialParaInfo) (state : TelCallState) :
    Moves R (updateCallReportInfo env info state) := by
  unfold updateCallReportInfo; infer_instance

instance : Moves R (handleDialFail env) := by
  unfold handleDialFail
  refine Moves.bind inferInstance fun dialing => ?_
  cases dialing <;> dsimp only <;> infer_instance

instance (info : DialParaInfo) : Moves R (handleStartDial env info) := by
  unfold handleStartDial; infer_instance

instance (ret : RetCode) : Moves R (abandonDial ret) := by unfold abandonDial; infer_instance

end Clearing

section Starting
variable [Starting R] [Outspoken R]

instance : Moves R (restoreDialingFlag true) := Starting.start

instance : Moves R (setDialingCallProcessing env) := Starting.processing env

instance (info : DialParaInfo) : Moves R (carrierDialProcess env info) := by
  unfold carrierDialProcess; infer_instance

instance : Moves R (dialRequest env) := by unfold dialRequest; infer_instance

instance (accountNumber : Bytes) (extras : DialExtras) :
    Moves R (CallControlManager.dialLegalNumber env accountNumber extras) := by
  unfold CallControlManager.dialLegalNumber; infer_instance

instance (number : List UInt16) (extras : DialExtras) :
    Moves R (CallControlManager.dialCall env number extras) := by
  unfold CallControlManager.dialCall
  split <;> infer_instance

instance (caller : Caller) (number : List UInt16) (extras : PacMap) :
    Moves R (CallManagerService.dialCall env caller number extras) := by
  unfold CallManagerService.dialCall; infer_instance

end Starting

/-! ## Flags and tasks -/

section Timeless
variable [Timeless R]

instance (f : CallRequestEventHandlerHelper → CallRequestEventHandlerHelper) :
    Moves R (modifyHelper f) :=
  .of_modify fun s => Timeless.timers s (f s.helper) s.pendingHangupTaskId s.lastTaskId s.delayed

instance (flag : Bool) : Moves R (restoreDialingFlag flag) := by
  unfold restoreDialingFlag; infer_instance

instance : Patient R where
  tasks s := Timeless.timers s s.helper
  drops {s helper} _ := Timeless.timers s helper s.pendingHangupTaskId s.lastTaskId s.delayed
  flags {s helper} _ := Timeless.timers s helper s.pendingHangupTaskId s.lastTaskId s.delayed

instance : Clearing R where
  clear _ _ := inferInstance
  pendingMo _ _ := inferInstance
  restore := inferInstance
  remove := inferInstance

instance : Starting R where
  start := inferInstance
  processing _ := inferInstance

/-! ## The main loop -/

variable [Outspoken R]

instance (t : DelayedTask) : Moves R (CallControlManager.runDelayedTask env t) := by
  cases t <;> dsimp only [CallControlManager.runDelayedTask] <;> infer_instance

instance (taskId : Nat) : Moves R (delayedTask env taskId) := by unfold delayedTask; infer_instance

/-- Every step of the main loop moves along a relation that minds neither the tones nor the
flags nor the tasks and requests. -/
instance [Flagging R] [Posting R] (input : Input) : Moves R (mainLoopStep env input) := by
  cases input <;> dsimp only [mainLoopStep] <;> infer_instance

end Timeless

/-! ## Whatever only looks at the flags, the tasks and the tones -/

namespace Aside

variable {s s' s'' : CallManager}

theorem refl (s : CallManager) : Aside s s := ⟨rfl, rfl, rfl, rfl, rfl, rfl, rfl, rfl⟩

theorem trans (h : Aside s s') (h' : Aside s' s'') : Aside s s'' where
  told := h'.told.trans h.told
  helper := h'.helper.trans h.helper
  pendingHangupTaskId := h'.pendingHangupTaskId.trans h.pendingHangupTaskId
  delayed := h'.delayed.trans h.delayed
  lastTaskId := h'.lastTaskId.trans h.lastTaskId
  audio := h'.audio.trans h.audio
  requests := h'.requests.trans h.requests
  sounds := h'.sounds.trans h.sounds

instance : Bare Aside where
  refl := refl
  trans _ _ _ := trans
  outside h := h.toAside
  object _ := ⟨rfl, rfl, rfl, rfl, rfl, rfl, rfl, rfl⟩
  create _ _ := ⟨rfl, rfl, rfl, rfl, rfl, rfl, rfl, rfl⟩

instance (f : CallBase → CallBase) : Moves Aside (modifyCall p f) :=
  .of_modify fun _ => ⟨rfl, rfl, rfl, rfl, rfl, rfl, rfl, rfl⟩

instance {α : Type} (isIMSCall : Bool) (f : Int → ConferenceBase → α × ConferenceBase) :
    Moves Aside (onConference isIMSCall f env) := by
  refine ⟨fun s => ?_⟩
  unfold onConference CallManager.setConference
  dsimp only
  split <;> exact ⟨rfl, rfl, rfl, rfl, rfl, rfl, rfl, rfl⟩

instance : Plain Aside where
  launch env p := by
    have : Moves Aside (setTelConferenceState p .active) := .of_modify fun _ =>
      ⟨rfl, rfl, rfl, rfl, rfl, rfl, rfl, rfl⟩
    unfold launchConference
    infer_instance
  exit env p := by unfold exitConference; infer_instance
  hold env p := by
    have : Moves Aside (setTelConferenceState p .holding) := bare_modifyCall fun _ =>
      ⟨rfl, rfl, fun _ => nofun⟩
    unfold holdConference
    infer_instance
  failed env p := by unfold handleCombineConferenceFailEvent; infer_instance
  refresh env p info := by
    have (callId : Int) : Moves Aside (Prog.modify fun s : CallManager =>
        { s with csConference := s.csConference.updateConferenceId callId }) :=
      .of_modify fun _ => ⟨rfl, rfl, rfl, rfl, rfl, rfl, rfl, rfl⟩
    unfold refreshCall
    refine Moves.bind inferInstance fun oldCall => Moves.bind inferInstance fun created => ?_
    cases created <;> dsimp only <;> infer_instance

end Aside

/-- A relation that does not look beyond the flags, the tasks and the tones is plain. -/
theorem Plain.of_aside [Std.Refl R] [IsTrans CallManager R]
    (h : ∀ {s s' : CallManager}, Aside s s' → R s s') : Plain R where
  outside ho := h ho.toAside
  object _ := h ⟨rfl, rfl, rfl, rfl, rfl, rfl, rfl, rfl⟩
  create _ _ := h ⟨rfl, rfl, rfl, rfl, rfl, rfl, rfl, rfl⟩
  launch env p := ⟨fun s => h (Moves.rel (m := launchConference env p) s)⟩
  exit env p := ⟨fun s => h (Moves.rel (m := exitConference env p) s)⟩
  hold env p := ⟨fun s => h (Moves.rel (m := holdConference env p) s)⟩
  failed env p := ⟨fun s => h (Moves.rel (m := handleCombineConferenceFailEvent env p) s)⟩
  refresh env p info := ⟨fun s => h (Moves.rel (m := refreshCall env p info) s)⟩

theorem Flagging.of_aside (h : ∀ {s s' : CallManager}, Aside s s' → R s s') : Flagging R where
  flag _ _ := .of_modify fun _ => h ⟨rfl, rfl, rfl, rfl, rfl, rfl, rfl, rfl⟩

end CallManagerMini
