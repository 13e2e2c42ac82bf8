import CallManagerMini.CallPermissionAdapter
import CallManagerMini.Lib.Heap
import CallManagerMini.Lib.Prog
import CallManagerMini.Lib.Runs
import CallManagerMini.State

/-! # The application's callback

`CallManagerProxy`, `CallAbilityReportProxy` and the registration part of
`CallManagerService`.  The application registers one callback through the proxy, which
remembers it; the service's report proxy holds it too, and posts each report to the main
loop as a task of its own, so that a task may run after its callback was given up.

A client call checks that the proxy is initialised and posts itself to the main loop; on
the main loop, which is where a callback runs, it runs in place.  A callback object is
numbered when it is registered: until then nobody but its own call knows it.
-/

namespace CallManagerMini

/-- What one of the three methods of `CallManagerCallback` is called with. -/
inductive Report where
  /-- `OnCallDetailsChange`. -/
  | callDetails (info : CallBase)
  /-- `OnCallEventChange`. -/
  | callEvent (eventId : CallAbilityEventId) (phoneNum : Bytes)
  /-- `OnCallDisconnectedCause`. -/
  | disconnectedCause (reason : Int)
  deriving DecidableEq, Repr

/-- The attributes `CallStateUpdated` reports: the number without what follows a separator,
and `ANSWERED` for a call that is answered. -/
def callAttributeInfo (call : CallBase) (nextState : TelCallState) : CallBase :=
  { call with
    accountNumber := call.accountNumber.takeWhile fun b => b ≠ 44 && b ≠ 59
    callState := if nextState = .answered then .answered else call.callState }

/-- The reports `CallAbilityReportProxy` makes of what the main loop tells its listeners. -/
def Event.report : Event → Option Report
  | .callStateUpdated call _ nextState => some (.callDetails (callAttributeInfo call nextState))
  | .callEventUpdated eventId phoneNum => some (.callEvent eventId phoneNum)
  | .callDestroyed reason => some (.disconnectedCause reason)
  | _ => none

/-- `CallAbilityCallback`, which owns an object of the application. -/
structure CallAbilityCallback where
  /-- Whether `callbackPtr_` still owns the object. -/
  callbackPtr : Bool := true
  closed : Bool := false
  bundleInfo : Bytes := []
  deriving DecidableEq, Repr, Inhabited

/-- A call of the application.  `call` stands for every call but those about the
registration, with what it tells the listeners and whether each post is accepted. -/
inductive ClientCall where
  | init
  | unInit
  /-- `RegisterCallBack`, with a callback or without. -/
  | registerCallBack (callback : Bool)
  | unRegisterCallBack
  | call (events : List (Event × Bool))
  deriving DecidableEq, Repr

/-- What the main loop is given to run. -/
inductive MainLoopTask where
  | unInit
  | registerCallBack
  | unRegisterCallBack
  | call (events : List (Event × Bool))
  /-- `CallManagerService::Init`, and whether its parts come up. -/
  | serviceInit (ok : Bool)
  | serviceUnInit
  /-- The `n`th report, to a callback. -/
  | report (callback : Ref) (n : Nat) (report : Report)
  deriving DecidableEq, Repr

/-- A task posted by a client call. -/
def MainLoopTask.IsClient : MainLoopTask → Prop
  | .unInit | .registerCallBack | .unRegisterCallBack | .call _ => True
  | _ => False

instance (t : MainLoopTask) : Decidable t.IsClient := by
  unfold MainLoopTask.IsClient
  split <;> infer_instance

/-- What the application sees, and what becomes of its objects. -/
inductive Notice where
  /-- `RegisterCallBack` succeeds. -/
  | registered (callback : Ref)
  /-- `UnRegisterCallBack` succeeds, or `UnInit` gives the callback up. -/
  | unregistered (callback : Ref)
  /-- A broadcast, and whether its report was posted. -/
  | broadcast (n : Nat) (report : Report) (posted : Bool)
  /-- The task of a report runs. -/
  | dispatched (n : Nat)
  /-- A method of the callback is called. -/
  | received (callback : Ref) (n : Nat) (report : Report)
  /-- The method returns. -/
  | returned (callback : Ref) (n : Nat)
  /-- The application's object is destroyed. -/
  | destroyed (callback : Ref)
  /-- The service is no longer ready. -/
  | stopped
  deriving DecidableEq, Repr

/-- The proxy, the report proxy, the service and the main loop between them. -/
structure Registration where
  initStatus : Bool := false
  registerStatus : Bool := false
  /-- `CallManagerProxy::callAbilityCallbackPtr_`. -/
  callAbilityCallbackPtr : Option Ref := none
  /-- `CallAbilityReportProxy::callbackPtr_`. -/
  callbackPtr : Option Ref := none
  ready : Bool := false
  callbacks : Heap CallAbilityCallback := ⟨fun _ => {}, 0⟩
  /-- Whether the main loop accepts and runs tasks. -/
  running : Bool := false
  queue : List MainLoopTask := []
  /-- The client calls that have found the proxy initialised and are about to be posted. -/
  calling : List MainLoopTask := []
  nextReport : Nat := 0
  log : List Notice := []

/-- Record a notice. -/
def note (e : Notice) : Prog Registration Unit :=
  Prog.modify fun s => { s with log := s.log ++ [e] }

def getCallback (p : Ref) : Prog Registration CallAbilityCallback :=
  Prog.gets fun s => s.callbacks.get p

/-! ## `CallAbilityCallback` -/

/-- `Close`. -/
def CallAbilityCallback.close (p : Ref) : Prog Registration Unit := do
  let c ← getCallback p
  Prog.modify fun s =>
    { s with callbacks := s.callbacks.set p { c with closed := true, callbackPtr := false } }
  Prog.when c.callbackPtr (note (.destroyed p))

/-! ## `CallAbilityReportProxy` -/

namespace CallAbilityReportProxy

/-- `RegisterCallBack`, of a new callback object. -/
def registerCallBack (bundleInfo : Bytes) : Prog Registration RetCode := do
  let held ← Prog.gets fun s => s.callbackPtr
  if held.isSome then pure .errRegisterCallbackFail
  else do
    Prog.modify fun s =>
      { s with
        callbacks := s.callbacks.alloc { bundleInfo := bundleInfo }
        callbackPtr := some s.callbacks.next }
    pure .success

/-- `UnRegisterCallBack`, by the bundle. -/
def unRegisterCallBack (bundleInfo : Bytes) : Prog Registration RetCode := do
  let held ← Prog.gets fun s => s.callbackPtr
  match held with
  | none => pure .errLocalPtrNull
  | some p => do
    let c ← getCallback p
    Prog.when (c.bundleInfo = bundleInfo) (Prog.modify fun s => { s with callbackPtr := none })
    pure .success

/-- `UnRegisterCallBack`, of exactly this callback. -/
def dropCallBack (callback : Ref) : Prog Registration RetCode := do
  Prog.modify fun s =>
    { s with callbackPtr := if s.callbackPtr = some callback then none else s.callbackPtr }
  pure .success

/-- A report is posted to the main loop, tied to the callback there is. -/
def post (accepted : Bool) (r : Report) : Prog Registration Unit :=
  Prog.modify fun s =>
    let s' := { s with nextReport := s.nextReport + 1 }
    match s.callbackPtr with
    | none => { s' with log := s.log ++ [.broadcast s.nextReport r false] }
    | some p =>
      if s.running && accepted then
        { s' with
          queue := s.queue ++ [.report p s.nextReport r]
          log := s.log ++ [.broadcast s.nextReport r true] }
      else { s' with log := s.log ++ [.broadcast s.nextReport r false] }

/-- What the listeners are told. -/
def notify (events : List (Event × Bool)) : Prog Registration Unit :=
  Prog.forEach events fun e => Prog.forSome e.1.report (post e.2)

end CallAbilityReportProxy

/-! ## `CallManagerService` -/

namespace CallManagerService

/-- `RegisterCallBack`. -/
def registerCallBack (trust : TrustModel) : Prog Registration RetCode :=
  if !trust.grants .setTelephonyState && !trust.grants .getTelephonyState &&
      !trust.grants .getCallTransferInfo then
    pure .errPermissionErr
  else CallAbilityReportProxy.registerCallBack trust.bundleName

/-- `UnRegisterCallBack`. -/
def unRegisterCallBack (trust : TrustModel) : Prog Registration RetCode :=
  if !trust.isSystemApp then pure .errIllegalUseOfSystemApi
  else if !trust.grants .setTelephonyState then pure .errPermissionErr
  else CallAbilityReportProxy.unRegisterCallBack trust.bundleName

/-- `Init`. -/
def init (ok : Bool) : Prog Registration RetCode := do
  let ready ← Prog.gets fun s => s.ready
  if ready then pure .success
  else if !ok then pure .errFail
  else do
    Prog.modify fun s => { s with ready := true }
    pure .success

/-- `UnInit`. -/
def unInit (trust : TrustModel) : Prog Registration Unit := do
  let ready ← Prog.gets fun s => s.ready
  Prog.when ready do
    Prog.modify fun s => { s with ready := false }
    let _ ← CallAbilityReportProxy.unRegisterCallBack trust.bundleName
    note .stopped

end CallManagerService

/-! ## `CallManagerProxy` -/

namespace CallManagerProxy

/-- The task `RunOnService` posts. -/
def runOnService (call : Prog Registration RetCode) : Prog Registration RetCode := do
  let ready ← Prog.gets fun s => s.ready
  if !ready then pure .errUninit else call

/-- The task of `UnInit`. -/
def unInitTask : Prog Registration Unit := do
  let held ← Prog.gets fun s => s.callAbilityCallbackPtr
  Prog.forSome held fun p => do
    CallAbilityCallback.close p
    (CallAbilityReportProxy.dropCallBack p).ignore
    note (.unregistered p)
  Prog.modify fun s => { s with callAbilityCallbackPtr := none, registerStatus := false }

/-- What the proxy makes of the service's refusal. -/
def refusal (serviceRet failed : RetCode) : RetCode :=
  if serviceRet = .errPermissionErr ∨ serviceRet = .errIllegalUseOfSystemApi then serviceRet
  else failed

/-- The task of `RegisterCallBack`. -/
def registerTask (trust : TrustModel) : Prog Registration RetCode := runOnService do
  let registered ← Prog.gets fun s => s.registerStatus
  if registered then pure .errRegisterCallbackFail
  else do
    let callback ← Prog.gets fun s => s.callbacks.next
    let serviceRet ← CallManagerService.registerCallBack trust
    if serviceRet ≠ .success then pure (refusal serviceRet .errRegisterCallbackFail)
    else do
      Prog.modify fun s =>
        { s with callAbilityCallbackPtr := some callback, registerStatus := true }
      note (.registered callback)
      pure .success

/-- The task of `UnRegisterCallBack`. -/
def unRegisterTask (trust : TrustModel) : Prog Registration RetCode := runOnService do
  let registered ← Prog.gets fun s => s.registerStatus
  if !registered then pure .errRegisterCallbackFail
  else do
    let serviceRet ← CallManagerService.unRegisterCallBack trust
    if serviceRet ≠ .success then pure (refusal serviceRet .errUnregisterCallbackFail)
    else do
      let held ← Prog.gets fun s => s.callAbilityCallbackPtr
      Prog.forSome held fun p => do
        CallAbilityCallback.close p
        note (.unregistered p)
      Prog.modify fun s => { s with callAbilityCallbackPtr := none, registerStatus := false }
      pure .success

/-- The task of every other call. -/
def callTask (events : List (Event × Bool)) : Prog Registration RetCode := runOnService do
  CallAbilityReportProxy.notify events
  pure .success

/-- The part of a call that its caller runs: the task to post, if it gets that far. -/
def enter : ClientCall → Prog Registration (Option MainLoopTask)
  | .init => do
    Prog.modify fun s => { s with initStatus := true }
    pure none
  | .unInit => do
    let initialized ← Prog.gets fun s => s.initStatus
    Prog.modify fun s => { s with initStatus := false }
    pure (if initialized then some .unInit else none)
  | .registerCallBack callback => do
    let initialized ← Prog.gets fun s => s.initStatus
    pure (if initialized && callback then some .registerCallBack else none)
  | .unRegisterCallBack => do
    let initialized ← Prog.gets fun s => s.initStatus
    pure (if initialized then some .unRegisterCallBack else none)
  | .call events => do
    let initialized ← Prog.gets fun s => s.initStatus
    pure (if initialized then some (.call events) else none)

/-- The tasks of the clients and of the service's life. -/
def runTask (trust : TrustModel) : MainLoopTask → Prog Registration Unit
  | .unInit => unInitTask
  | .registerCallBack => (registerTask trust).ignore
  | .unRegisterCallBack => (unRegisterTask trust).ignore
  | .call events => (callTask events).ignore
  | .serviceInit ok => (CallManagerService.init ok).ignore
  | .serviceUnInit => CallManagerService.unInit trust
  | .report .. => pure ()

/-- A call made on the main loop runs in place. -/
def runInPlace (trust : TrustModel) (c : ClientCall) : Prog Registration Unit := do
  let task ← enter c
  let running ← Prog.gets fun s => s.running
  Prog.when running (Prog.forSome task (runTask trust))

end CallManagerProxy

/-- The task of a report, during which the callback makes the calls of `nested`. -/
def CallAbilityCallback.onReport (trust : TrustModel) (p : Ref) (n : Nat) (r : Report)
    (nested : List ClientCall) : Prog Registration RetCode := do
  note (.dispatched n)
  let c ← getCallback p
  if c.closed || !c.callbackPtr then pure .errLocalPtrNull
  else do
    note (.received p n r)
    Prog.forEach nested (CallManagerProxy.runInPlace trust)
    note (.returned p n)
    pure .success

/-! ## Steps -/

namespace Registration

/-- What may happen next. -/
inductive Action where
  /-- A task of the application makes a call, up to the post. -/
  | call (c : ClientCall)
  /-- A call that got that far is posted. -/
  | post (k : Nat) (accepted : Bool)
  | loopInit
  /-- The main loop stops, and drops what is queued. -/
  | loopStop
  /-- `CallManagerServiceMiniStart` posts the service's `Init`. -/
  | start (ok accepted : Bool)
  /-- `CallManagerServiceMiniStop` posts the service's `UnInit`. -/
  | stop (accepted : Bool)
  /-- The main loop runs its next task; a callback makes the calls of `nested`. -/
  | dispatch (nested : List ClientCall)
  /-- The main loop runs some other task of the service, which tells its listeners something. -/
  | service (events : List (Event × Bool))
  deriving DecidableEq, Repr

/-- Hand tasks to the main loop. -/
def enqueue (accepted : Bool) (tasks : List MainLoopTask) : Prog Registration Unit :=
  Prog.modify fun s =>
    if s.running && accepted then { s with queue := s.queue ++ tasks } else s

/-- Run one task. -/
def dispatch (trust : TrustModel) (nested : List ClientCall) : MainLoopTask → Prog Registration Unit
  | .report p n r => (CallAbilityCallback.onReport trust p n r nested).ignore
  | t => CallManagerProxy.runTask trust t

/-- An action. -/
def act (trust : TrustModel) : Action → Prog Registration Unit
  | .call c => do
    let task ← CallManagerProxy.enter c
    Prog.modify fun s => { s with calling := s.calling ++ task.toList }
  | .post k accepted => do
    let calling ← Prog.gets fun s => s.calling
    Prog.modify fun s => { s with calling := calling.eraseIdx k }
    enqueue accepted calling[k]?.toList
  | .loopInit => Prog.modify fun s => { s with running := true }
  | .loopStop => Prog.modify fun s => { s with running := false, queue := [] }
  | .start ok accepted => enqueue accepted [.serviceInit ok]
  | .stop accepted => enqueue accepted [.serviceUnInit]
  | .dispatch nested => do
    let running ← Prog.gets fun s => s.running
    let task ← Prog.gets fun s => s.queue.head?
    Prog.when running <| Prog.forSome task fun t => do
      Prog.modify fun s => { s with queue := s.queue.tail }
      dispatch trust nested t
  | .service events => do
    let running ← Prog.gets fun s => s.running
    Prog.when running (CallAbilityReportProxy.notify events)

/-- The state an action leads to. -/
def step (trust : TrustModel) (a : Action) (s : Registration) : Registration := (act trust a s).2

/-- The states of all runs. -/
def Reachable (trust : TrustModel) : Registration → Prop :=
  Runs.Reachable (· = {}) (Runs.Step (step trust) fun _ _ => True)

/-- The state after some actions. -/
def run (trust : TrustModel) (as : List Action) : Registration :=
  as.foldl (fun s a => step trust a s) {}

end Registration

end CallManagerMini
