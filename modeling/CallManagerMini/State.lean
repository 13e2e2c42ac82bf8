import CallManagerMini.Lib.Prog
import CallManagerMini.Lib.Heap
import CallManagerMini.CallBase
import CallManagerMini.Conference

/-! # The state of the call manager

Everything the main loop task owns, in one record, and the outside world it
talks to, in another.  The functions of the call manager are programs over this
state (`Prog CallManager`); they run on the main loop, one at a time, so a
program is one step of the system.

The outside world (`Env`) answers from what has happened so far, so that two
calls with the same arguments may be answered differently.  What has happened so
far is the `log`: every command and query with its answer, every broadcast, and
every post to the main loop.

`needWaitHold_` is initialised `false` and only ever assigned `false` in this
build, so the branches it guards (`HandleDialWhenHolding`, the deferred dial in
`HandleStartDial`) are never taken and are not modelled.  Allocation always
succeeds.
-/

namespace CallManagerMini

/-- The delayed tasks the call manager posts to the main loop. -/
inductive DelayedTask where
  /-- `SetDialingCallProcessing`'s task. -/
  | restoreDialingFlag
  /-- `PostPendingHangupProtectTask`'s task. -/
  | pendingHangupProtect (callId : Int)
  deriving DecidableEq, Repr

/-- The requests `CallRequestHandler` posts to the main loop. -/
inductive Request where
  | answer (callId : Int) (videoState : Int) (isRTT : Bool)
  | reject (callId : Int) (isSendSms : Bool)
  | hangUp (callId : Int)
  | hold (callId : Int)
  | unHold (callId : Int)
  | switch (callId : Int)
  deriving DecidableEq, Repr

/-- What the call manager asks the stack and the core service. -/
inductive Query where
  | isEmergencyPhoneNumber (number : Bytes) (slotId : Int)
  | hasSimCard (slotId : Int)
  | isNetworkInService (slotId : Int)
  deriving DecidableEq, Repr

/-- What leaves a trace outside the main loop's own state, in order. -/
inductive Event where
  /-- A command to the stack; the reply is `none` when no stack is registered, in
  which case nothing is sent. -/
  | command (c : Command) (reply : Option Int)
  | query (q : Query) (answer : Bool)
  | audio (r : AudioRequest) (reply : Option Int)
  /-- A post to the main loop, and what `PostAsyncTask` returned. -/
  | posted (ret : RetCode)
  /-- `AddOneCallObject success!`. -/
  | callAdded (callId : Int) (callState : TelCallState)
  /-- `NotifyNewCallCreated`, with the object as the observers see it. -/
  | newCallCreated (call : CallBase)
  /-- `NotifyCallStateUpdated`, with the object as the observers see it. -/
  | callStateUpdated (call : CallBase) (priorState nextState : TelCallState)
  | incomingCallActivated (call : CallBase)
  | incomingCallHungUp (call : CallBase) (isSendSms : Bool)
  | callDestroyed (reason : Int)
  | callEventUpdated (eventId : CallAbilityEventId) (phoneNum : Bytes)
  deriving DecidableEq, Repr

/-- The outside world during one main-loop step. -/
structure Env where
  /-- The registered stack's reply, `none` when none is registered. -/
  stack : List Event → Command → Option Int
  /-- What `enabled` or the like is set to; `false` when nothing is registered. -/
  answer : List Event → Query → Bool
  /-- The registered audio implementation's reply. -/
  audio : List Event → AudioRequest → Option Int
  /-- What `PostAsyncTask` returns for a post to the main loop, which takes it if that is
  `TELEPHONY_SUCCESS`; else the queue is full, or the loop is being stopped. -/
  post : List Event → RetCode
  /-- `time(nullptr)`. -/
  time : List Event → Int

/-- The three flags of `AudioControlManager` that its functions read. -/
structure AudioControl where
  ringtonePlaying : Bool := false
  waitingTonePlaying : Bool := false
  callAudioActive : Bool := false
  deriving DecidableEq, Repr, Inhabited

/-- The dial extras after `BuildDialInfo`: every key is present, and `PutIntValue`
overwrites.  The default value reads like an empty `PacMap`. -/
structure DialExtras where
  accountId : Int := 0
  videoState : Int := 0
  dialScene : Int := 0
  dialType : Int := 0
  callType : Int := 0
  isRTT : Bool := false
  phoneIndex : Int := 0
  deriving DecidableEq, Repr, Inhabited

/-- `CallRequestEventHandlerHelper`. -/
structure CallRequestEventHandlerHelper where
  isDialingCallProcessing : Bool := false
  /-- `0` is `TEL_MINI_INVALID_TASK_ID`. -/
  restoreTaskId : Nat := 0
  pendingMo : Bool := false
  pendingMoCallId : Int := -1
  pendingHangup : Bool := false
  pendingHangupCallId : Int := -1
  deriving DecidableEq, Repr, Inhabited

/-- The state of the call manager service. -/
structure CallManager where
  /-- Every call object ever created. -/
  calls : Heap CallBase := { cell := fun _ => default, next := 0 }
  callObjectPtrList : List Ref := []
  /-- `callId_`, the last id `GetNewCallId` handed out.  The source has an `int32_t`, which the
  model takes for an integer: it has no value left after `2 ^ 31 - 1` calls. -/
  callId : Int := 0
  dialSrcInfo : DialParaInfo := {}
  extras : DialExtras := {}
  helper : CallRequestEventHandlerHelper := {}
  pendingHangupTaskId : Nat := 0
  /-- The main loop's delayed tasks, by task id, and the last id handed out.  The source has a
  `uint32_t`, which comes round after `2 ^ 32 - 1` delayed tasks and skips zero; here ids go on, so
  that an id that is kept for longer than that is told apart from a new one.  The event handler's
  own model (`LosEventHandler.nextTaskId`) wraps. -/
  delayed : List (Nat × DelayedTask) := []
  lastTaskId : Nat := 0
  /-- The requests posted to the main loop and not run yet. -/
  requests : List Request := []
  callDetailsInfo : Int → List CallDetailInfo := fun _ => []
  tmpCallDetailsInfo : Int → List CallDetailInfo := fun _ => []
  csConference : ConferenceBase := {}
  imsConference : ConferenceBase := {}
  audio : AudioControl := {}
  log : List Event := []

namespace CallManager

/-- The call object behind `p`. -/
def call (s : CallManager) (p : Ref) : CallBase := s.calls.get p

/-- Replace the call object behind `p` by `f` of it. -/
def updateCall (s : CallManager) (p : Ref) (f : CallBase → CallBase) : CallManager :=
  { s with calls := s.calls.set p (f (s.call p)) }

/-- Append an event to the log. -/
def logged (s : CallManager) (e : Event) : CallManager := { s with log := s.log ++ [e] }

end CallManager

/-! ## The primitive programs -/

/-- Read the call object behind `p`. -/
def getCall (p : Ref) : Prog CallManager CallBase := Prog.gets fun s => s.call p

/-- Apply a method of the call object behind `p` that returns nothing. -/
def modifyCall (p : Ref) (f : CallBase → CallBase) : Prog CallManager Unit :=
  Prog.modify fun s => s.updateCall p f

/-- `new CSCall(…)` or `new IMSCall(…)`. -/
def newCall (c : CallBase) : Prog CallManager Ref :=
  fun s => (s.calls.next, { s with calls := s.calls.alloc c })

/-- Record an event. -/
def emit (e : Event) : Prog CallManager Unit := Prog.modify fun s => s.logged e

/-- Send a command to the stack (`CellularCallConnection`). -/
def sendCommand (env : Env) (c : Command) : Prog CallManager RetCode := fun s =>
  let reply := env.stack s.log c
  (match reply with
    | none => .errIpcConnectStubFail
    | some code => .ofReply code,
   s.logged (.command c reply))

/-- Ask the stack or the core service. -/
def ask (env : Env) (q : Query) : Prog CallManager Bool := fun s =>
  let answer := env.answer s.log q
  (answer, s.logged (.query q answer))

/-- Post a task to the main loop, to be run by a later step. -/
def postRequest (env : Env) (r : Request) : Prog CallManager RetCode := fun s =>
  let ret := env.post s.log
  let s := s.logged (.posted ret)
  (ret, if ret = .success then { s with requests := s.requests ++ [r] } else s)

/-- Post a delayed task to the main loop; on success its task id is returned. -/
def postDelayed (env : Env) (t : DelayedTask) : Prog CallManager (Option Nat) := fun s =>
  let ret := env.post s.log
  let s := s.logged (.posted ret)
  if ret = .success then
    let id := s.lastTaskId + 1
    (some id, { s with lastTaskId := id, delayed := s.delayed ++ [(id, t)] })
  else (none, s)

/-- `RemoveAsyncTask` on the main loop. -/
def removeAsyncTask (id : Nat) : Prog CallManager Unit :=
  Prog.modify fun s => { s with delayed := s.delayed.filter fun t => t.1 ≠ id }

end CallManagerMini
