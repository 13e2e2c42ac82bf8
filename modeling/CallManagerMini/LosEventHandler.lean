import CallManagerMini.Lib.RingBuffer
import CallManagerMini.TelOsAdapter
import CallManagerMini.Types

/-! # The event handler

`LosEventHandler` (`los_event_handler.cpp`), the loop the call manager runs on: what it keeps,
and where each of its callers can stand.  Posters, synchronous callers and the timer callback
are **calls** (`Call`), any number of them at once; beside them there are the task that runs the
loop or calls `Dispatch` (`LoopPc`) and the task that is inside `Stop` (`StopPc`).  A place in
the code lies between two operations that another task can see: an atomic load or store, an
operation on a kernel object, a section under `lock_`.
-/

namespace CallManagerMini

/-- `STATE_UNINIT`, `STATE_RUNNING`, `STATE_STOPPING`. -/
inductive HandlerState where
  | uninit
  | running
  | stopping
  deriving DecidableEq, Repr

/-- `TelMiniTaskId`. -/
abbrev TelMiniTaskId := BitVec 32

/-- `TEL_MINI_INVALID_TASK_ID`. -/
def telMiniInvalidTaskId : TelMiniTaskId := 0#32

/-- `TelOsTaskId`. -/
abbrev TelOsTaskId := Nat

/-- What the callers of the handler ask for.  The task they post is named by the call. -/
inductive HandlerRequest where
  | postAsyncTask (delayMs : BitVec 32)
  | removeAsyncTask (taskId : TelMiniTaskId)
  | postSyncTask (timeoutMs : BitVec 32)
  | onTimerExpired
  deriving DecidableEq, Repr

/-- `LosEventMessage`: the task of a call, or the timer message there is only one of. -/
inductive LosEventMessage where
  | asyncTask (call : Nat)
  | syncCall (call : Nat)
  | timerFire
  deriving DecidableEq, Repr

/-- What a call returns. -/
inductive Outcome where
  | ret (code : RetCode) (taskId : TelMiniTaskId)
  | removed (found : Bool)
  | void
  deriving DecidableEq, Repr

/-- The `SyncContext` of a synchronous call. -/
structure SyncContext where
  slot : Nat := 0
  abandoned : Bool := false
  done : Bool := false
  status : RetCode := .success
  deriving DecidableEq, Repr

/-- Where a call stands: what it does next. -/
inductive CallPc where
  /-- It is not counted yet (`LosEventHandlerCall`). -/
  | called
  /-- It is counted, and reads the state. -/
  | counted
  /-- `new LosEventMessage`, and `new SyncContext` of a synchronous call. -/
  | allocate
  /-- The section of `PostAsyncTask` that enters a delayed task. -/
  | insert
  /-- The section of `RemoveAsyncTask`. -/
  | remove
  /-- `IsOnLoop` of `PostSyncTask`. -/
  | onLoop
  /-- The task of a synchronous call that is made on the loop. -/
  | inPlace
  /-- `AcquireWaiter`. -/
  | acquire
  /-- `timerMessageQueued_.exchange(true)`. -/
  | exchange
  /-- `Enqueue` reads the state. -/
  | enqueue
  /-- `Enqueue` calls the poster. -/
  | post
  /-- The section of `Enqueue` that writes the ring. -/
  | push
  /-- `TelOsSemPost(queueSem_)`. -/
  | signal
  /-- The section of `PostSyncTask` that gives back the slot of a refused message. -/
  | freeSlot (ret : RetCode)
  /-- `TelOsSemWait(waiterSems_[slot], timeoutMs)`. -/
  | await
  /-- The section of `PostSyncTask` behind the wait. -/
  | settle (waited : Bool)
  /-- `timerMessageQueued_.store(false)` of `OnTimerExpired`. -/
  | unqueue
  /-- `TelOsTimerStart(timer_, TicksToMs(1))`. -/
  | rearm
  /-- It is still counted. -/
  | leaving (outcome : Outcome)
  | returned (outcome : Outcome)
  deriving DecidableEq, Repr

/-- A call of the handler, made by `task`. -/
structure Call where
  request : HandlerRequest
  task : TelOsTaskId
  pc : CallPc := .called
  context : SyncContext := {}
  deriving DecidableEq, Repr

/-- Where the task stands that runs the loop (`RunLoop`), or that calls `Dispatch`. -/
inductive LoopPc where
  /-- There is no loop task; an external owner is between two messages. -/
  | idle
  /-- `BindLoopTask`. -/
  | bind
  /-- `TelOsSemWait(queueSem_, TEL_OS_WAIT_FOREVER)`. -/
  | wait
  /-- The section that takes the next message and reads the state. -/
  | pop
  /-- `dispatching_.fetch_add(1)`. -/
  | dispatch (message : LosEventMessage)
  /-- `Dispatch` reads the state. -/
  | check (message : LosEventMessage)
  /-- `Dispatch` found the handler running, and reads the kind of the message. -/
  | handle (message : LosEventMessage)
  /-- The section of `RunDueTasks`. -/
  | runDue
  /-- The delayed tasks that are still to run. -/
  | runDelayed (calls : List Nat)
  | runAsync (call : Nat)
  | runSync (call : Nat)
  /-- The section of `Complete`. -/
  | complete (drained : Bool) (call : Nat) (status : RetCode)
  /-- `Recycle`, called by `Dispatch` or by the last loop of `RunLoop`. -/
  | recycle (drained : Bool) (message : LosEventMessage)
  /-- `dispatching_.fetch_sub(1)`. -/
  | dispatched
  /-- The section of the last loop of `RunLoop`. -/
  | drain
  /-- `loopTaskId_.store(0)`. -/
  | unbind
  /-- `loopRunning_.store(false)`. -/
  | exit
  deriving DecidableEq, Repr

/-- Where the task stands that is inside `Stop`, behind the exchange that made it the one. -/
inductive StopPc where
  | idle
  /-- `IsOnLoop` of a self-driven handler. -/
  | checkOnLoop
  /-- `state_.store(STATE_RUNNING)`: a self-driven handler is not stopped from its own loop. -/
  | resume
  | stopTimer
  /-- The section that takes over the delayed tasks. -/
  | dropDelayed
  /-- `TelOsSemPost(queueSem_)`. -/
  | wakeLoop
  /-- `loopRunning_.load()`. -/
  | awaitLoop
  /-- `IsOnLoop` of an externally driven handler. -/
  | checkOffLoop
  /-- `dispatching_.load()`. -/
  | awaitDispatch
  /-- `activeCalls_.load()`. -/
  | awaitCalls
  /-- `timerMessageQueued_.load()`. -/
  | awaitTimerMessage
  /-- The section that looks for a slot in use. -/
  | awaitWaiters
  /-- `ReleaseObjects`, object by object. -/
  | releaseTimer
  | releaseWaiters
  | releaseQueue
  | releaseLock
  | releaseMessage
  | clearQueued
  /-- `state_.store(STATE_UNINIT)`. -/
  | finish
  deriving DecidableEq, Repr

/-- Who may hold `lock_`. -/
inductive Agent where
  | call (i : Nat)
  | loop
  | stop
  deriving DecidableEq, Repr

/-- `LosEventHandler::DelayedTask`. -/
structure LosEventHandler.DelayedTask where
  id : TelMiniTaskId
  dueTick : BitVec 32
  call : Nat
  deriving DecidableEq, Repr

/-- A timer of the kernel; the tick it fires at, as long as it is pending. -/
structure OsTimer where
  deadline : Option Nat := none
  deriving DecidableEq, Repr

/-- What is seen of the handler. -/
inductive HandlerEvent where
  | started
  | stopped
  | acquired (call slot : Nat)
  | released (call slot : Nat)
  | dispatched (message : LosEventMessage)
  | recycled (message : LosEventMessage)
  | ran (call : Nat)
  | removed (call : Nat)
  | dropped (call : Nat)
  | returned (call : Nat) (outcome : Outcome)
  deriving DecidableEq, Repr

/-- The handler, the tasks inside it, and the kernel it runs on.  An object of the kernel that
has not been created or is released is `none`. -/
structure LosEventHandler where
  state : HandlerState := .uninit
  /-- The mutex and who holds it. -/
  lock : Option (Option Agent) := none
  timer : Option OsTimer := none
  /-- The count of the semaphore. -/
  queueSem : Option Nat := none
  waiterSems : List Nat := []
  waiterInUse : List Bool := []
  ring : RingBuffer LosEventMessage := .empty 0
  delayed : List LosEventHandler.DelayedTask := []
  lastTaskId : TelMiniTaskId := telMiniInvalidTaskId
  /-- `timerMessage_` points to the timer message. -/
  timerMessage : Bool := false
  timerMessageQueued : Bool := false
  loopTaskId : TelOsTaskId := 0
  loopRunning : Bool := false
  dispatching : Nat := 0
  activeCalls : Nat := 0
  calls : List Call := []
  loop : LoopPc := .idle
  /-- `stopping` of `RunLoop`. -/
  loopStopping : Bool := false
  stop : StopPc := .idle
  /-- The task that is inside `Stop`. -/
  stopTask : TelOsTaskId := 0
  /-- The messages an external poster accepted and its owner has not taken yet. -/
  posted : List LosEventMessage := []
  /-- The ticks since the system started. -/
  tick : Nat := 0
  log : List HandlerEvent := []
  deriving DecidableEq, Repr

namespace LosEventHandler

/-- `LosEventHandler::Config`; what the kernel fixes stands with it: the tick frequency, and the
id of the task that runs the loop or calls `Dispatch`. -/
structure Config where
  queueSize : Nat
  maxDelayedTasks : Nat
  maxSyncWaiters : Nat
  /-- `poster != nullptr`: the handler is externally driven. -/
  poster : Bool
  /-- `loopName != nullptr`. -/
  loopName : Bool
  tickFreq : BitVec 32
  loopTask : TelOsTaskId
  deriving DecidableEq, Repr

/-! ## Kernel objects -/

/-- `TelOsGetTickCount`. -/
def tickCount (s : LosEventHandler) : BitVec 32 := BitVec.ofNat 32 s.tick

/-- `TelOsTimerStart(timer_, delayMs)`. -/
def startTimer (config : Config) (delayMs : BitVec 32) (s : LosEventHandler) : LosEventHandler :=
  if delayMs = telOsWaitForever then s
  else
    let ticks := telOsMsToTicks config.tickFreq delayMs
    let ticks := if ticks = 0#32 then 1#32 else ticks
    { s with timer := s.timer.map fun _ => { deadline := some (s.tick + ticks.toNat) } }

/-- `TelOsTimerStop(timer_)`. -/
def stopTimer (s : LosEventHandler) : LosEventHandler :=
  { s with timer := s.timer.map fun _ => { deadline := none } }

/-- `TelOsSemPost(queueSem_)`; the semaphore counts no further than the ring has places. -/
def postQueueSem (config : Config) (s : LosEventHandler) : LosEventHandler :=
  { s with queueSem := s.queueSem.map fun n => if n < config.queueSize + 1 then n + 1 else n }

/-- `TelOsSemPost(waiterSems_[slot])`; the semaphore counts to one. -/
def postWaiterSem (slot : Nat) (s : LosEventHandler) : LosEventHandler :=
  { s with waiterSems := s.waiterSems.modify slot fun _ => 1 }

/-- `TelOsSemWait(waiterSems_[slot], 0)`. -/
def pollWaiterSem (slot : Nat) (s : LosEventHandler) : LosEventHandler :=
  { s with waiterSems := s.waiterSems.modify slot fun n => n - 1 }

/-- A section under `lock_` (`MutexGuard`): its first step takes the lock, its second step is the
section and gives the lock back.  A lock that does not exist keeps nobody out. -/
def guarded (me : Agent) (body : LosEventHandler → LosEventHandler) (s : LosEventHandler) :
    Option LosEventHandler :=
  match s.lock with
  | none => some (body s)
  | some none => some { s with lock := some (some me) }
  | some (some owner) => if owner = me then some (body { s with lock := some none }) else none

/-- Note an event. -/
def note (e : HandlerEvent) (s : LosEventHandler) : LosEventHandler :=
  { s with log := s.log ++ [e] }

/-- `IsOnLoop`, asked by `task`. -/
def isOnLoop (task : TelOsTaskId) (s : LosEventHandler) : Bool :=
  s.loopTaskId ≠ 0 && s.loopTaskId = task

/-! ## The calls -/

/-- Put the call `i` at another place. -/
def goto (i : Nat) (c : Call) (pc : CallPc) (s : LosEventHandler) : LosEventHandler :=
  { s with calls := s.calls.set i { c with pc } }

end LosEventHandler

namespace HandlerRequest

/-- Where a call goes on that finds the handler running. -/
def admitted : HandlerRequest → CallPc
  | .postAsyncTask delayMs => if delayMs = 0#32 then .allocate else .insert
  | .removeAsyncTask taskId =>
    if taskId = telMiniInvalidTaskId then .leaving (.removed false) else .remove
  | .postSyncTask _ => .onLoop
  | .onTimerExpired => .exchange

/-- What a call returns that finds the handler not running. -/
def refused : HandlerRequest → Outcome
  | .postAsyncTask _ | .postSyncTask _ => .ret .errUninit telMiniInvalidTaskId
  | .removeAsyncTask _ => .removed false
  | .onTimerExpired => .void

/-- Where a call goes on when `Enqueue` has returned. -/
def enqueued (ret : RetCode) : HandlerRequest → CallPc
  | .postSyncTask _ =>
    match ret with
    | .success => .await
    | ret => .freeSlot ret
  | .onTimerExpired =>
    match ret with
    | .success => .leaving .void
    | _ => .unqueue
  | _ => .leaving (.ret ret telMiniInvalidTaskId)

@[simp] theorem enqueued_async (ret : RetCode) (delayMs : BitVec 32) :
    (postAsyncTask delayMs).enqueued ret = .leaving (.ret ret telMiniInvalidTaskId) := rfl

@[simp] theorem enqueued_remove (ret : RetCode) (taskId : TelMiniTaskId) :
    (removeAsyncTask taskId).enqueued ret = .leaving (.ret ret telMiniInvalidTaskId) := rfl

@[simp] theorem enqueued_sync_success (timeoutMs : BitVec 32) :
    (postSyncTask timeoutMs).enqueued .success = .await := rfl

@[simp] theorem enqueued_sync_full (timeoutMs : BitVec 32) :
    (postSyncTask timeoutMs).enqueued .errIpcConnectStubFail =
      .freeSlot .errIpcConnectStubFail := rfl

@[simp] theorem enqueued_sync_uninit (timeoutMs : BitVec 32) :
    (postSyncTask timeoutMs).enqueued .errUninit = .freeSlot .errUninit := rfl

@[simp] theorem enqueued_timer_success : onTimerExpired.enqueued .success = .leaving .void := rfl

@[simp] theorem enqueued_timer_full :
    onTimerExpired.enqueued .errIpcConnectStubFail = .unqueue := rfl

@[simp] theorem enqueued_timer_uninit : onTimerExpired.enqueued .errUninit = .unqueue := rfl

end HandlerRequest

/-- The message the call `i` enqueues. -/
def Call.message (i : Nat) (c : Call) : LosEventMessage :=
  match c.request with
  | .onTimerExpired => .timerFire
  | .postSyncTask _ => .syncCall i
  | _ => .asyncTask i

namespace LosEventHandler

/-- `ArmTimerLocked`. -/
def armTimerLocked (config : Config) (s : LosEventHandler) : LosEventHandler :=
  match s.delayed with
  | [] => s.stopTimer
  | entry :: _ =>
    let now := s.tickCount
    let ticks := if isDue entry.dueTick now then 1#32 else entry.dueTick - now
    s.startTimer config (ticksToMs config.tickFreq ticks)

/-- `++lastTaskId_`, twice where the counter wraps. -/
def nextTaskId (s : LosEventHandler) : TelMiniTaskId :=
  if s.lastTaskId + 1#32 = telMiniInvalidTaskId then s.lastTaskId + 1#32 + 1#32
  else s.lastTaskId + 1#32

/-- The entries a new entry with this due time is put behind. -/
def before (dueTick : BitVec 32) (l : List DelayedTask) : List DelayedTask :=
  l.takeWhile (fun entry => !isDue dueTick entry.dueTick) ++
    (l.dropWhile fun entry => !isDue dueTick entry.dueTick).takeWhile
      fun entry => entry.dueTick = dueTick

/-- Enter a task with a delay; the timer is armed if it is the first to be due. -/
def enterDelayed (config : Config) (i : Nat) (delayMs : BitVec 32) (s : LosEventHandler) :
    LosEventHandler :=
  let ticks := telOsMsToTicks config.tickFreq delayMs
  let dueTick := s.tickCount + (if ticks = 0#32 then 1#32 else ticks)
  let front := before dueTick s.delayed
  let s' := { s with
    lastTaskId := s.nextTaskId
    delayed := front ++ { id := s.nextTaskId, dueTick, call := i } :: s.delayed.drop front.length }
  if front = [] then s'.armTimerLocked config else s'

/-- The section of `PostAsyncTask`. -/
def insertDelayed (config : Config) (i : Nat) (c : Call) (delayMs : BitVec 32)
    (s : LosEventHandler) : LosEventHandler :=
  if s.delayed.length ≥ config.maxDelayedTasks then
    s.goto i c (.leaving (.ret .errIpcConnectStubFail telMiniInvalidTaskId))
  else (s.enterDelayed config i delayMs).goto i c (.leaving (.ret .success s.nextTaskId))

/-- Take out the entry at place `k`; the timer is armed anew if it was the first. -/
def eraseDelayed (config : Config) (k : Nat) (s : LosEventHandler) : LosEventHandler :=
  let s' := { s with
    delayed := s.delayed.eraseIdx k
    log := s.log ++ (s.delayed[k]?.map fun entry => HandlerEvent.removed entry.call).toList }
  if k = 0 then s'.armTimerLocked config else s'

/-- The section of `RemoveAsyncTask`. -/
def removeDelayed (config : Config) (i : Nat) (c : Call) (taskId : TelMiniTaskId)
    (s : LosEventHandler) : LosEventHandler :=
  match s.delayed.findIdx? fun entry => entry.id = taskId with
  | none => s.goto i c (.leaving (.removed false))
  | some k => (s.eraseDelayed config k).goto i c (.leaving (.removed true))

/-- `AcquireWaiter`. -/
def acquireWaiter (i : Nat) (c : Call) (s : LosEventHandler) : LosEventHandler :=
  match s.waiterInUse.findIdx? fun inUse => !inUse with
  | none => s.goto i c (.leaving (.ret .errIpcConnectStubFail telMiniInvalidTaskId))
  | some slot =>
    ({ s with waiterInUse := s.waiterInUse.set slot true }.note (.acquired i slot)).goto i
      { c with context := { slot } } .allocate

/-- `waiterInUse_[slot] = false`. -/
def releaseWaiter (i slot : Nat) (s : LosEventHandler) : LosEventHandler :=
  { s with waiterInUse := s.waiterInUse.set slot false }.note (.released i slot)

/-- How many messages the ring may hold for `message` to be taken: one place is kept for the
timer message. -/
def ringLimit (config : Config) (message : LosEventMessage) (s : LosEventHandler) : Nat :=
  if message = .timerFire then s.ring.capacity else config.queueSize

/-- The section of `Enqueue`. -/
def pushLocked (config : Config) (i : Nat) (c : Call) (s : LosEventHandler) : LosEventHandler :=
  if h : s.ring.count < s.ringLimit config (c.message i) ∧ s.ring.count < s.ring.slots.length then
    { s with ring := s.ring.push (c.message i) h.2 }.goto i c .signal
  else s.goto i c (c.request.enqueued .errIpcConnectStubFail)

/-- The section of `PostSyncTask` behind the wait. -/
def settleWaiter (i : Nat) (c : Call) (waited : Bool) (s : LosEventHandler) : LosEventHandler :=
  if waited ∨ c.context.done then
    ((if waited then s else s.pollWaiterSem c.context.slot).releaseWaiter i c.context.slot).goto i c
      (.leaving (.ret c.context.status telMiniInvalidTaskId))
  else
    s.goto i { c with context := { c.context with abandoned := true } }
      (.leaving (.ret .errIpcConnectStubFail telMiniInvalidTaskId))

/-- The next step of the call `i`.  `choice` is what the code does not decide: whether memory is
there, whether the poster takes the message, whether the wait is over. -/
def callStep (config : Config) (i : Nat) (choice : Bool) (s : LosEventHandler) :
    Option LosEventHandler :=
  match s.calls[i]? with
  | none => none
  | some c =>
    match c.pc with
    | .called => some ({ s with activeCalls := s.activeCalls + 1 }.goto i c .counted)
    | .counted =>
      some (s.goto i c
        (if s.state = .running then c.request.admitted else .leaving c.request.refused))
    | .allocate =>
      some (s.goto i c (if choice then .enqueue else c.request.enqueued .errIpcConnectStubFail))
    | .insert =>
      match c.request with
      | .postAsyncTask delayMs => s.guarded (.call i) (insertDelayed config i c delayMs)
      | _ => none
    | .remove =>
      match c.request with
      | .removeAsyncTask taskId => s.guarded (.call i) (removeDelayed config i c taskId)
      | _ => none
    | .onLoop => some (s.goto i c (if s.isOnLoop c.task then .inPlace else .acquire))
    | .inPlace =>
      some ((s.note (.ran i)).goto i c (.leaving (.ret .success telMiniInvalidTaskId)))
    | .acquire => s.guarded (.call i) (acquireWaiter i c)
    | .exchange =>
      some (if s.timerMessageQueued then s.goto i c (.leaving .void)
        else { s with timerMessageQueued := true }.goto i c .enqueue)
    | .enqueue =>
      some (s.goto i c (if s.state ≠ .running then c.request.enqueued .errUninit
        else if config.poster then .post else .push))
    | .post =>
      some (if choice then
          { s with posted := s.posted ++ [c.message i] }.goto i c (c.request.enqueued .success)
        else s.goto i c (c.request.enqueued .errIpcConnectStubFail))
    | .push => s.guarded (.call i) (pushLocked config i c)
    | .signal => some ((s.postQueueSem config).goto i c (c.request.enqueued .success))
    | .freeSlot ret =>
      s.guarded (.call i) fun s =>
        (s.releaseWaiter i c.context.slot).goto i c (.leaving (.ret ret telMiniInvalidTaskId))
    | .await =>
      match s.waiterSems[c.context.slot]? with
      | none => some (s.goto i c (.settle false))
      | some 0 =>
        -- A wait without a limit goes on.
        if choice ∧ c.request ≠ .postSyncTask telOsWaitForever then
          some (s.goto i c (.settle false))
        else none
      | some (n + 1) =>
        some ({ s with waiterSems := s.waiterSems.set c.context.slot n }.goto i c (.settle true))
    | .settle waited => s.guarded (.call i) (settleWaiter i c waited)
    | .unqueue => some ({ s with timerMessageQueued := false }.goto i c .rearm)
    | .rearm =>
      some ((s.startTimer config (ticksToMs config.tickFreq 1#32)).goto i c (.leaving .void))
    | .leaving outcome =>
      some (({ s with activeCalls := s.activeCalls - 1 }.note (.returned i outcome)).goto i c
        (.returned outcome))
    | .returned _ => none

/-! ## The loop and `Dispatch` -/

end LosEventHandler

/-- A synchronous call whose message was answered. -/
def Call.completed (status : RetCode) (c : Call) : Call :=
  { c with context := { c.context with status, done := true } }

namespace LosEventHandler

/-- The section of `Complete`. -/
def completeLocked (i : Nat) (status : RetCode) (s : LosEventHandler) : LosEventHandler :=
  match s.calls[i]? with
  | none => s
  | some c =>
    let s' := { s with calls := s.calls.set i (c.completed status) }
    if c.context.abandoned then s'.releaseWaiter i c.context.slot
    else s'.postWaiterSem c.context.slot

/-- The section of `RunDueTasks`. -/
def takeDueLocked (config : Config) (s : LosEventHandler) : LosEventHandler :=
  let now := s.tickCount
  let due := s.delayed.takeWhile fun entry => isDue entry.dueTick now
  { armTimerLocked config { s with
      delayed := s.delayed.dropWhile fun entry => isDue entry.dueTick now } with
    loop := .runDelayed (due.map DelayedTask.call) }

/-- The section of `RunLoop`. -/
def popLocked (s : LosEventHandler) : LosEventHandler :=
  let stopping := decide (s.state ≠ .running)
  match s.ring.pop with
  | none => { s with loopStopping := stopping, loop := if stopping then .drain else .wait }
  | some (message, rest) =>
    { s with ring := rest, loopStopping := stopping, loop := .dispatch message }

/-- The section of the last loop of `RunLoop`. -/
def drainLocked (s : LosEventHandler) : LosEventHandler :=
  match s.ring.pop with
  | none => { s with loop := .unbind }
  | some (message, rest) => { s with ring := rest, loop := .recycle true message }

end LosEventHandler

/-- Where `Recycle` and `Complete` return to. -/
def LoopPc.behind (drained : Bool) : LoopPc := if drained then .drain else .dispatched

/-- A task of a poster runs. -/
def LoopPc.executing : LoopPc → Bool
  | .runDelayed (_ :: _) | .runAsync _ | .runSync _ => true
  | _ => false

namespace LosEventHandler

/-- The next step of the task that runs the loop or is inside `Dispatch`. -/
def loopStep (config : Config) (s : LosEventHandler) : Option LosEventHandler :=
  match s.loop with
  | .idle => none
  | .bind => some { s with loopTaskId := config.loopTask, loop := .wait }
  | .wait =>
    match s.queueSem with
    | none => some { s with loop := .pop }
    | some 0 => none
    | some (n + 1) => some { s with queueSem := some n, loop := .pop }
  | .pop => s.guarded .loop popLocked
  | .dispatch message => some { s with dispatching := s.dispatching + 1, loop := .check message }
  | .check message =>
    some { s with loop := if s.state = .running then .handle message else .recycle false message }
  | .handle message =>
    let s := s.note (.dispatched message)
    match message with
    | .timerFire => some { s with timerMessageQueued := false, loop := .runDue }
    | .syncCall i => some { s with loop := .runSync i }
    | .asyncTask i => some { s with loop := .runAsync i }
  | .runDue => s.guarded .loop (takeDueLocked config)
  | .runDelayed [] => some { s with loop := .dispatched }
  | .runDelayed (i :: calls) => some { s.note (.ran i) with loop := .runDelayed calls }
  | .runAsync i => some { s.note (.ran i) with loop := .dispatched }
  | .runSync i => some { s.note (.ran i) with loop := .complete false i .success }
  | .complete drained i status =>
    s.guarded .loop fun s => { s.completeLocked i status with loop := .behind drained }
  | .recycle drained message =>
    let s := s.note (.recycled message)
    match message with
    | .timerFire => some { s with timerMessageQueued := false, loop := .behind drained }
    | .syncCall i => some { s with loop := .complete drained i .errUninit }
    | .asyncTask _ => some { s with loop := .behind drained }
  | .dispatched =>
    some { s with
      dispatching := s.dispatching - 1
      loop := if config.poster then .idle else if s.loopStopping then .drain else .wait }
  | .drain => s.guarded .loop drainLocked
  | .unbind => some { s with loopTaskId := 0, loop := .exit }
  | .exit => some { s with loopRunning := false, loop := .idle }

/-! ## `Stop` -/

/-- The next step of `Stop`.  A wait that is not over asks again, or its time is up (`timeUp`). -/
def stopStep (config : Config) (timeUp : Bool) (s : LosEventHandler) : Option LosEventHandler :=
  match s.stop with
  | .idle => none
  | .checkOnLoop =>
    some { s with stop := if s.isOnLoop s.stopTask then .resume else .stopTimer }
  | .resume => some { s with state := .running, stop := .idle }
  | .stopTimer => some { s.stopTimer with stop := .dropDelayed }
  | .dropDelayed =>
    s.guarded .stop fun s => { s with
      delayed := []
      log := s.log ++ s.delayed.map fun (entry : DelayedTask) => HandlerEvent.dropped entry.call
      stop := if config.poster then .checkOffLoop else .wakeLoop }
  | .wakeLoop => some { s.postQueueSem config with stop := .awaitLoop }
  | .awaitLoop =>
    some { s with
      stop := if s.loopRunning then (if timeUp then .idle else .awaitLoop) else .awaitCalls }
  | .checkOffLoop =>
    some { s with stop := if s.isOnLoop s.stopTask then .awaitCalls else .awaitDispatch }
  | .awaitDispatch =>
    -- Whether the wait was over is not looked at.
    some { s with stop := if s.dispatching = 0 ∨ timeUp then .awaitCalls else .awaitDispatch }
  | .awaitCalls =>
    some { s with
      stop := if s.activeCalls ≠ 0 then (if timeUp then .idle else .awaitCalls)
        else .awaitTimerMessage }
  | .awaitTimerMessage =>
    some { s with
      stop := if s.timerMessageQueued then (if timeUp then .idle else .awaitCalls)
        else .awaitWaiters }
  | .awaitWaiters =>
    s.guarded .stop fun s => { s with
      stop := if true ∈ s.waiterInUse then (if timeUp then .idle else .awaitCalls)
        else .releaseTimer }
  | .releaseTimer => some { s with timer := none, stop := .releaseWaiters }
  | .releaseWaiters => some { s with waiterSems := [], waiterInUse := [], stop := .releaseQueue }
  | .releaseQueue => some { s with queueSem := none, ring := .empty 0, stop := .releaseLock }
  | .releaseLock => some { s with lock := none, stop := .releaseMessage }
  | .releaseMessage => some { s with timerMessage := false, stop := .clearQueued }
  | .clearQueued => some { s with timerMessageQueued := false, stop := .finish }
  | .finish => some ({ s with state := .uninit, stop := .idle }.note .stopped)

/-! ## The system -/

/-- The handler runs, with all its objects. -/
def initialized (config : Config) (s : LosEventHandler) : LosEventHandler :=
  let s := { s with
    timerMessage := true
    lock := some none
    timer := some {}
    waiterSems := List.replicate config.maxSyncWaiters 0
    waiterInUse := List.replicate config.maxSyncWaiters false
    state := .running }
  (if config.poster then s
    else { s with
      ring := .empty (config.queueSize + 1)
      queueSem := some 0
      loopRunning := true
      loop := .bind }).note .started

/-- `Init`; `created` says whether the kernel has the objects and the task.  It is one step: nobody
calls the handler between the store of `STATE_RUNNING` and the creation of the loop task, nor while
an `Init` that cannot create the task takes both back. -/
def init (config : Config) (created : Bool) (s : LosEventHandler) : LosEventHandler :=
  if s.state ≠ .uninit ∨ config.queueSize = 0 ∨ config.maxDelayedTasks = 0 ∨
      config.maxSyncWaiters = 0 ∨ (¬config.poster ∧ ¬config.loopName) ∨ ¬created then s
  else s.initialized config

/-- What can happen next. -/
inductive Act where
  | init (created : Bool)
  /-- A task makes a call. -/
  | invoke (request : HandlerRequest) (task : TelOsTaskId)
  /-- The timer fires: its callback is called. -/
  | expire (task : TelOsTaskId)
  | call (i : Nat) (choice : Bool)
  | loop
  /-- The owner of an externally driven handler calls `BindLoopTask`. -/
  | bindLoopTask
  /-- The owner takes the message at place `k` to `Dispatch`. -/
  | receive (k : Nat)
  /-- A task calls `Stop`. -/
  | callStop (task : TelOsTaskId)
  | stop (timeUp : Bool)
  | tick
  deriving DecidableEq, Repr

/-- `Stop` was called by the task of the loop, and has not returned. -/
def stopsOnLoop (config : Config) (s : LosEventHandler) : Bool :=
  s.stop ≠ .idle && s.stopTask = config.loopTask

/-- The task of the loop is in code that is not the handler's: it runs the task of a poster, or it
is an owner between two messages. -/
def leftToOwner (config : Config) (s : LosEventHandler) : Bool :=
  s.loop.executing || config.poster && s.loop = .idle

/-- **One step of the system**, if it can be taken. -/
def step? (config : Config) (a : Act) (s : LosEventHandler) : Option LosEventHandler :=
  match a with
  | .init created => some (s.init config created)
  | .invoke request task =>
    if request = .onTimerExpired then none
    else some { s with calls := s.calls ++ [{ request, task }] }
  | .expire task =>
    match s.timer with
    | some { deadline := some deadline } =>
      if deadline ≤ s.tick then
        some { s with
          timer := some {}
          calls := s.calls ++ [{ request := .onTimerExpired, task }] }
      else none
    | _ => none
  | .call i choice => s.callStep config i choice
  -- The task of the loop does nothing else while it is inside `Stop`.
  | .loop => if s.stopsOnLoop config then none else s.loopStep config
  | .bindLoopTask =>
    if config.poster ∧ s.loop = .idle ∧ ¬s.stopsOnLoop config then
      some { s with loopTaskId := config.loopTask }
    else none
  | .receive k =>
    if config.poster ∧ s.loop = .idle ∧ ¬s.stopsOnLoop config then
      s.posted[k]?.map fun message =>
        { s with posted := s.posted.eraseIdx k, loop := .dispatch message }
    else none
  | .callStop task =>
    if task = config.loopTask ∧ ¬(s.leftToOwner config ∧ ¬s.stopsOnLoop config) then none
    else if s.state = .running then
      some { s with
        state := .stopping
        stop := if config.poster then .stopTimer else .checkOnLoop
        stopTask := task }
    else some s
  | .stop timeUp => s.stopStep config timeUp
  | .tick => some { s with tick := s.tick + 1 }

end LosEventHandler

end CallManagerMini
