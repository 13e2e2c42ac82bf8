import CallManagerMini.LosEventHandler

/-! # What the event handler can do

Every step of the system takes `lock_` and does nothing else, or is one of the moves listed here
(`step_cases`).  A call's move (`CallMove`) is split in what it does to what the calls share and
what it does to the call itself; whoever holds the lock does not matter to a move, so that an
invariant that does not speak of the holder is checked against the moves alone.
-/

namespace CallManagerMini

/-- The call, at another place. -/
abbrev Call.goto (c : Call) (pc : CallPc) : Call := { c with pc }

namespace LosEventHandler

variable {config : Config} {s s' : LosEventHandler} {i : Nat} {c : Call}

/-- **The moves of the call `i`**, which is `c`: the state it leaves to the others, and what it
becomes itself. -/
inductive CallMove (config : Config) (i : Nat) (s : LosEventHandler) (c : Call) :
    LosEventHandler → Call → Prop where
  | enter : c.pc = .called →
    CallMove config i s c { s with activeCalls := s.activeCalls + 1 } (c.goto .counted)
  | allow : c.pc = .counted → s.state = .running →
    CallMove config i s c s (c.goto c.request.admitted)
  | refuse : c.pc = .counted → s.state ≠ .running →
    CallMove config i s c s (c.goto (.leaving c.request.refused))
  | allocate : c.pc = .allocate → CallMove config i s c s (c.goto .enqueue)
  | starve : c.pc = .allocate →
    CallMove config i s c s (c.goto (c.request.enqueued .errIpcConnectStubFail))
  | insert {delayMs : BitVec 32} : c.pc = .insert → c.request = .postAsyncTask delayMs →
    s.delayed.length < config.maxDelayedTasks →
    CallMove config i s c (s.enterDelayed config i delayMs)
      (c.goto (.leaving (.ret .success s.nextTaskId)))
  | insertFull : c.pc = .insert → s.delayed.length ≥ config.maxDelayedTasks →
    CallMove config i s c s
      (c.goto (.leaving (.ret .errIpcConnectStubFail telMiniInvalidTaskId)))
  | remove {taskId : TelMiniTaskId} {k : Nat} : c.pc = .remove →
    c.request = .removeAsyncTask taskId →
    (s.delayed.findIdx? fun entry => entry.id = taskId) = some k →
    CallMove config i s c (s.eraseDelayed config k) (c.goto (.leaving (.removed true)))
  | removeNone {taskId : TelMiniTaskId} : c.pc = .remove → c.request = .removeAsyncTask taskId →
    (s.delayed.findIdx? fun entry => entry.id = taskId) = none →
    CallMove config i s c s (c.goto (.leaving (.removed false)))
  | onLoop : c.pc = .onLoop → s.isOnLoop c.task = true →
    CallMove config i s c s (c.goto .inPlace)
  | offLoop : c.pc = .onLoop → s.isOnLoop c.task = false →
    CallMove config i s c s (c.goto .acquire)
  | runInPlace : c.pc = .inPlace →
    CallMove config i s c (s.note (.ran i)) (c.goto (.leaving (.ret .success telMiniInvalidTaskId)))
  | acquire {slot : Nat} : c.pc = .acquire → s.waiterInUse[slot]? = some false →
    CallMove config i s c
      ({ s with waiterInUse := s.waiterInUse.set slot true }.note (.acquired i slot))
      { c with context := { slot }, pc := .allocate }
  | acquireNone : c.pc = .acquire → false ∉ s.waiterInUse →
    CallMove config i s c s
      (c.goto (.leaving (.ret .errIpcConnectStubFail telMiniInvalidTaskId)))
  | exchange : c.pc = .exchange → s.timerMessageQueued = false →
    CallMove config i s c { s with timerMessageQueued := true } (c.goto .enqueue)
  | exchangeQueued : c.pc = .exchange → s.timerMessageQueued = true →
    CallMove config i s c s (c.goto (.leaving .void))
  | enqueue : c.pc = .enqueue → s.state = .running →
    CallMove config i s c s (c.goto (if config.poster then .post else .push))
  | enqueueStopped : c.pc = .enqueue → s.state ≠ .running →
    CallMove config i s c s (c.goto (c.request.enqueued .errUninit))
  | post : c.pc = .post →
    CallMove config i s c { s with posted := s.posted ++ [c.message i] }
      (c.goto (c.request.enqueued .success))
  | postRefused : c.pc = .post →
    CallMove config i s c s (c.goto (c.request.enqueued .errIpcConnectStubFail))
  | push (hpc : c.pc = .push) (h : s.ring.count < s.ring.slots.length) :
    s.ring.count < s.ringLimit config (c.message i) →
    CallMove config i s c { s with ring := s.ring.push (c.message i) h } (c.goto .signal)
  | pushFull : c.pc = .push →
    ¬(s.ring.count < s.ringLimit config (c.message i) ∧ s.ring.count < s.ring.slots.length) →
    CallMove config i s c s (c.goto (c.request.enqueued .errIpcConnectStubFail))
  | signal : c.pc = .signal →
    CallMove config i s c (s.postQueueSem config) (c.goto (c.request.enqueued .success))
  | freeSlot {ret : RetCode} : c.pc = .freeSlot ret →
    CallMove config i s c (s.releaseWaiter i c.context.slot)
      (c.goto (.leaving (.ret ret telMiniInvalidTaskId)))
  | wake {n : Nat} : c.pc = .await → s.waiterSems[c.context.slot]? = some (n + 1) →
    CallMove config i s c { s with waiterSems := s.waiterSems.set c.context.slot n }
      (c.goto (.settle true))
  | timeOut : c.pc = .await → CallMove config i s c s (c.goto (.settle false))
  | settle : c.pc = .settle true →
    CallMove config i s c (s.releaseWaiter i c.context.slot)
      (c.goto (.leaving (.ret c.context.status telMiniInvalidTaskId)))
  | settleDone : c.pc = .settle false → c.context.done = true →
    CallMove config i s c ((s.pollWaiterSem c.context.slot).releaseWaiter i c.context.slot)
      (c.goto (.leaving (.ret c.context.status telMiniInvalidTaskId)))
  | abandon : c.pc = .settle false → c.context.done = false →
    CallMove config i s c s
      { c with
        context := { c.context with abandoned := true }
        pc := .leaving (.ret .errIpcConnectStubFail telMiniInvalidTaskId) }
  | unqueue : c.pc = .unqueue →
    CallMove config i s c { s with timerMessageQueued := false } (c.goto .rearm)
  | rearm : c.pc = .rearm →
    CallMove config i s c (s.startTimer config (ticksToMs config.tickFreq 1#32))
      (c.goto (.leaving .void))
  | leave {outcome : Outcome} : c.pc = .leaving outcome →
    CallMove config i s c
      ({ s with activeCalls := s.activeCalls - 1 }.note (.returned i outcome))
      (c.goto (.returned outcome))

/-- **The moves of the loop and of `Dispatch`.** -/
inductive LoopMove (config : Config) (s : LosEventHandler) : LosEventHandler → Prop where
  | bind : s.loop = .bind →
    LoopMove config s { s with loopTaskId := config.loopTask, loop := .wait }
  | wait {n : Option Nat} : s.loop = .wait → n.isSome = s.queueSem.isSome →
    (∀ m, s.queueSem = some m → ∃ k, m = k + 1 ∧ n = some k) →
    LoopMove config s { s with queueSem := n, loop := .pop }
  | popNone : s.loop = .pop → s.ring.pop = none →
    LoopMove config s { s with
      loopStopping := decide (s.state ≠ .running)
      loop := if s.state = .running then .wait else .drain }
  | pop {message : LosEventMessage} {rest : RingBuffer LosEventMessage} : s.loop = .pop →
    s.ring.pop = some (message, rest) →
    LoopMove config s { s with
      ring := rest, loopStopping := decide (s.state ≠ .running), loop := .dispatch message }
  | dispatch {message : LosEventMessage} : s.loop = .dispatch message →
    LoopMove config s { s with dispatching := s.dispatching + 1, loop := .check message }
  | allow {message : LosEventMessage} : s.loop = .check message → s.state = .running →
    LoopMove config s { s with loop := .handle message }
  | refuse {message : LosEventMessage} : s.loop = .check message → s.state ≠ .running →
    LoopMove config s { s with loop := .recycle false message }
  | handleTimer : s.loop = .handle .timerFire →
    LoopMove config s { s.note (.dispatched .timerFire) with
      timerMessageQueued := false, loop := .runDue }
  | handleSync {i : Nat} : s.loop = .handle (.syncCall i) →
    LoopMove config s { s.note (.dispatched (.syncCall i)) with loop := .runSync i }
  | handleAsync {i : Nat} : s.loop = .handle (.asyncTask i) →
    LoopMove config s { s.note (.dispatched (.asyncTask i)) with loop := .runAsync i }
  | takeDue : s.loop = .runDue → LoopMove config s (s.takeDueLocked config)
  | ranAll : s.loop = .runDelayed [] → LoopMove config s { s with loop := .dispatched }
  | runDelayed {i : Nat} {calls : List Nat} : s.loop = .runDelayed (i :: calls) →
    LoopMove config s { s.note (.ran i) with loop := .runDelayed calls }
  | runAsync {i : Nat} : s.loop = .runAsync i →
    LoopMove config s { s.note (.ran i) with loop := .dispatched }
  | runSync {i : Nat} : s.loop = .runSync i →
    LoopMove config s { s.note (.ran i) with loop := .complete false i .success }
  | complete {drained : Bool} {i : Nat} {status : RetCode} :
    s.loop = .complete drained i status →
    LoopMove config s { s.completeLocked i status with loop := .behind drained }
  | recycleTimer {drained : Bool} : s.loop = .recycle drained .timerFire →
    LoopMove config s { s.note (.recycled .timerFire) with
      timerMessageQueued := false, loop := .behind drained }
  | recycleSync {drained : Bool} {i : Nat} : s.loop = .recycle drained (.syncCall i) →
    LoopMove config s { s.note (.recycled (.syncCall i)) with
      loop := .complete drained i .errUninit }
  | recycleAsync {drained : Bool} {i : Nat} : s.loop = .recycle drained (.asyncTask i) →
    LoopMove config s { s.note (.recycled (.asyncTask i)) with loop := .behind drained }
  | dispatched : s.loop = .dispatched →
    LoopMove config s { s with
      dispatching := s.dispatching - 1
      loop := if config.poster then .idle else if s.loopStopping then .drain else .wait }
  | drainNone : s.loop = .drain → s.ring.pop = none → LoopMove config s { s with loop := .unbind }
  | drain {message : LosEventMessage} {rest : RingBuffer LosEventMessage} : s.loop = .drain →
    s.ring.pop = some (message, rest) →
    LoopMove config s { s with ring := rest, loop := .recycle true message }
  | unbind : s.loop = .unbind → LoopMove config s { s with loopTaskId := 0, loop := .exit }
  | exit : s.loop = .exit → LoopMove config s { s with loopRunning := false, loop := .idle }

/-- **The moves of `Stop`** that lead it to another place; `timeUp` says whether it gives up a
wait. -/
inductive StopMove (config : Config) (s : LosEventHandler) : Bool → LosEventHandler → Prop where
  | onLoop {b : Bool} : s.stop = .checkOnLoop → s.isOnLoop s.stopTask = true →
    StopMove config s b { s with stop := .resume }
  | offLoop {b : Bool} : s.stop = .checkOnLoop → s.isOnLoop s.stopTask = false →
    StopMove config s b { s with stop := .stopTimer }
  | resume {b : Bool} : s.stop = .resume →
    StopMove config s b { s with state := .running, stop := .idle }
  | stopTimer {b : Bool} : s.stop = .stopTimer →
    StopMove config s b { s.stopTimer with stop := .dropDelayed }
  | dropDelayed {b : Bool} : s.stop = .dropDelayed →
    StopMove config s b { s with
      delayed := []
      log := s.log ++ s.delayed.map fun entry => .dropped entry.call
      stop := if config.poster then .checkOffLoop else .wakeLoop }
  | wakeLoop {b : Bool} : s.stop = .wakeLoop →
    StopMove config s b { s.postQueueSem config with stop := .awaitLoop }
  | loopEnded {b : Bool} : s.stop = .awaitLoop → s.loopRunning = false →
    StopMove config s b { s with stop := .awaitCalls }
  | poll {b : Bool} : StopMove config s b s
  /-- The kernel objects are kept. -/
  | giveUp : s.stop = .awaitLoop ∨ s.stop = .awaitCalls ∨ s.stop = .awaitTimerMessage ∨
      s.stop = .awaitWaiters → StopMove config s true { s with stop := .idle }
  | checkedOnLoop {b : Bool} : s.stop = .checkOffLoop → s.isOnLoop s.stopTask = true →
    StopMove config s b { s with stop := .awaitCalls }
  | checkedOffLoop {b : Bool} : s.stop = .checkOffLoop → s.isOnLoop s.stopTask = false →
    StopMove config s b { s with stop := .awaitDispatch }
  | dispatchEnded {b : Bool} : s.stop = .awaitDispatch → s.dispatching = 0 →
    StopMove config s b { s with stop := .awaitCalls }
  | dispatchTimedOut : s.stop = .awaitDispatch → s.dispatching ≠ 0 →
    StopMove config s true { s with stop := .awaitCalls }
  | callsEnded {b : Bool} : s.stop = .awaitCalls → s.activeCalls = 0 →
    StopMove config s b { s with stop := .awaitTimerMessage }
  | timerMessageBack {b : Bool} : s.stop = .awaitTimerMessage → s.timerMessageQueued = false →
    StopMove config s b { s with stop := .awaitWaiters }
  | waitersEnded {b : Bool} : s.stop = .awaitWaiters → true ∉ s.waiterInUse →
    StopMove config s b { s with stop := .releaseTimer }
  | waitAgain {b : Bool} : s.stop = .awaitTimerMessage ∨ s.stop = .awaitWaiters →
    StopMove config s b { s with stop := .awaitCalls }
  | releaseTimer {b : Bool} : s.stop = .releaseTimer →
    StopMove config s b { s with timer := none, stop := .releaseWaiters }
  | releaseWaiters {b : Bool} : s.stop = .releaseWaiters →
    StopMove config s b { s with waiterSems := [], waiterInUse := [], stop := .releaseQueue }
  | releaseQueue {b : Bool} : s.stop = .releaseQueue →
    StopMove config s b { s with queueSem := none, ring := .empty 0, stop := .releaseLock }
  | releaseLock {b : Bool} : s.stop = .releaseLock →
    StopMove config s b { s with lock := none, stop := .releaseMessage }
  | releaseMessage {b : Bool} : s.stop = .releaseMessage →
    StopMove config s b { s with timerMessage := false, stop := .clearQueued }
  | clearQueued {b : Bool} : s.stop = .clearQueued →
    StopMove config s b { s with timerMessageQueued := false, stop := .finish }
  | finish {b : Bool} : s.stop = .finish →
    StopMove config s b ({ s with state := .uninit, stop := .idle }.note .stopped)

/-- **A move of the system.** -/
inductive Move (config : Config) (s : LosEventHandler) : Act → LosEventHandler → Prop where
  | init {created : Bool} : s.state = .uninit → Move config s (.init created) (s.initialized config)
  | invoke {request : HandlerRequest} {task : TelOsTaskId} : request ≠ .onTimerExpired →
    Move config s (.invoke request task) { s with calls := s.calls ++ [{ request, task }] }
  | expire {task : TelOsTaskId} {deadline : Nat} : s.timer = some { deadline := some deadline } →
    deadline ≤ s.tick →
    Move config s (.expire task) { s with
      timer := some {}
      calls := s.calls ++ [{ request := .onTimerExpired, task }] }
  | call {i : Nat} {choice : Bool} {c c' : Call} {s₁ : LosEventHandler} :
    s.calls[i]? = some c → CallMove config i s c s₁ c' →
    Move config s (.call i choice) { s₁ with calls := s₁.calls.set i c' }
  | loop {s' : LosEventHandler} : s.stopsOnLoop config = false →
    LoopMove config s s' → Move config s .loop s'
  | bindLoopTask : config.poster = true → s.loop = .idle →
    Move config s .bindLoopTask { s with loopTaskId := config.loopTask }
  | receive {k : Nat} {message : LosEventMessage} : config.poster = true → s.loop = .idle →
    s.posted[k]? = some message → s.stopsOnLoop config = false →
    Move config s (.receive k) { s with
      posted := s.posted.eraseIdx k, loop := .dispatch message }
  | callStop {task : TelOsTaskId} : s.state = .running →
    (task = config.loopTask → s.leftToOwner config = true) →
    Move config s (.callStop task) { s with
      state := .stopping
      stop := if config.poster then .stopTimer else .checkOnLoop
      stopTask := task }
  | stop {timeUp : Bool} {s' : LosEventHandler} : StopMove config s timeUp s' →
    Move config s (.stop timeUp) s'
  | tick : Move config s .tick { s with tick := s.tick + 1 }
  /-- A second `Stop`, or an `Init` that has nothing to do. -/
  | nothing {a : Act} : Move config s a s

/-! ## Every step is a move -/

/-- The first step of a section takes the lock, its second step is the section. -/
theorem guarded_cases {me : Agent} {body : LosEventHandler → LosEventHandler}
    (h : guarded me body s = some s') :
    (s.lock = some none ∧ s' = { s with lock := some (some me) }) ∨
      ∃ l, l.isSome = s.lock.isSome ∧ s' = body { s with lock := l } := by
  unfold guarded at h
  split at h
  next hlock => exact .inr ⟨none, by rw [hlock], by rw [← hlock]; exact (Option.some.inj h).symm⟩
  next hlock => exact .inl ⟨hlock, (Option.some.inj h).symm⟩
  next owner hlock =>
    split at h
    · exact .inr ⟨some none, by rw [hlock]; rfl, (Option.some.inj h).symm⟩
    · cases h

/-- What a step comes to: it takes the lock, or the given moves do it. -/
def Does (s : LosEventHandler) (moves : LosEventHandler → LosEventHandler → Prop)
    (s' : LosEventHandler) : Prop :=
  (∃ me, s.lock = some none ∧ s' = { s with lock := some (some me) }) ∨
    ∃ l, l.isSome = s.lock.isSome ∧ moves { s with lock := l } s'

theorem Does.now {moves : LosEventHandler → LosEventHandler → Prop} (h : moves s s') :
    s.Does moves s' := .inr ⟨s.lock, rfl, h⟩

theorem Does.guarded {me : Agent} {body : LosEventHandler → LosEventHandler}
    {moves : LosEventHandler → LosEventHandler → Prop} (h : s.guarded me body = some s')
    (hbody : ∀ l, l.isSome = s.lock.isSome →
      moves { s with lock := l } (body { s with lock := l })) : s.Does moves s' := by
  obtain ⟨hlock, rfl⟩ | ⟨l, hl, rfl⟩ := guarded_cases h
  · exact .inl ⟨me, hlock, rfl⟩
  · exact .inr ⟨l, hl, hbody l hl⟩

theorem Does.mono {moves moves' : LosEventHandler → LosEventHandler → Prop}
    (h : s.Does moves s') (hm : ∀ s s', moves s s' → moves' s s') : s.Does moves' s' := by
  obtain h | ⟨l, hl, h⟩ := h
  · exact .inl h
  · exact .inr ⟨l, hl, hm _ _ h⟩

/-- A step of a call. -/
def Calling (config : Config) (i : Nat) (s s' : LosEventHandler) : Prop :=
  ∃ c s₁ c', s.calls[i]? = some c ∧ CallMove config i s c s₁ c' ∧
    s' = { s₁ with calls := s₁.calls.set i c' }

theorem callStep_cases {choice : Bool} (h : s.callStep config i choice = some s') :
    s.Does (Calling config i) s' := by
  unfold callStep at h
  split at h
  · cases h
  next c hc =>
  have hnow : ∀ {s₁ c'}, some { s₁ with calls := s₁.calls.set i c' } = some s' →
      CallMove config i s c s₁ c' → s.Does (Calling config i) s' :=
    fun heq hm => .now ⟨c, _, _, hc, hm, (Option.some.inj heq).symm⟩
  have hsection : ∀ {body}, s.guarded (.call i) body = some s' →
      (∀ l, ∃ s₁ c', CallMove config i { s with lock := l } c s₁ c' ∧
        body { s with lock := l } = { s₁ with calls := s₁.calls.set i c' }) →
      s.Does (Calling config i) s' :=
    fun hg hm => .guarded hg fun l _ =>
      have ⟨s₁, c', hmove, heq⟩ := hm l
      ⟨c, s₁, c', hc, hmove, heq⟩
  cases hpc : c.pc with
  | called =>
    simp only [hpc] at h
    exact hnow h (.enter hpc)
  | counted =>
    simp only [hpc] at h
    split at h
    next hs => exact hnow h (.allow hpc hs)
    next hs => exact hnow h (.refuse hpc hs)
  | allocate =>
    simp only [hpc] at h
    split at h
    · exact hnow h (.allocate hpc)
    · exact hnow h (.starve hpc)
  | insert =>
    simp only [hpc] at h
    split at h
    next delayMs hreq =>
      refine hsection h fun l => ?_
      unfold insertDelayed
      split
      next hfull => exact ⟨_, _, .insertFull hpc hfull, rfl⟩
      next hroom => exact ⟨_, _, .insert hpc hreq (Nat.lt_of_not_le hroom), rfl⟩
    · cases h
  | remove =>
    simp only [hpc] at h
    split at h
    next taskId hreq =>
      refine hsection h fun l => ?_
      unfold removeDelayed
      split
      next hk => exact ⟨_, _, .removeNone hpc hreq hk, rfl⟩
      next k hk => exact ⟨_, _, .remove hpc hreq hk, rfl⟩
    · cases h
  | onLoop =>
    simp only [hpc] at h
    split at h
    next hon => exact hnow h (.onLoop hpc hon)
    next hoff => exact hnow h (.offLoop hpc (Bool.eq_false_iff.mpr hoff))
  | inPlace =>
    simp only [hpc] at h
    exact hnow h (.runInPlace hpc)
  | acquire =>
    simp only [hpc] at h
    refine hsection h fun l => ?_
    unfold acquireWaiter
    split
    next hnone =>
      refine ⟨_, _, .acquireNone hpc fun hmem => ?_, rfl⟩
      have hused := List.findIdx?_eq_none_iff.mp hnone false hmem
      cases hused
    next slot hslot =>
      have hfree : s.waiterInUse[slot]? = some false := by
        obtain ⟨hlt, hfalse, -⟩ := List.findIdx?_eq_some_iff_getElem.mp hslot
        rw [List.getElem?_eq_getElem hlt]
        simpa using hfalse
      exact ⟨_, _, .acquire hpc hfree, rfl⟩
  | exchange =>
    simp only [hpc] at h
    split at h
    next hq => exact hnow h (.exchangeQueued hpc hq)
    next hq => exact hnow h (.exchange hpc (Bool.eq_false_iff.mpr hq))
  | enqueue =>
    simp only [hpc] at h
    by_cases hs : s.state = .running
    · rw [if_neg (not_not_intro hs)] at h
      exact hnow h (.enqueue hpc hs)
    · rw [if_pos hs] at h
      exact hnow h (.enqueueStopped hpc hs)
  | post =>
    simp only [hpc] at h
    split at h
    · exact hnow h (.post hpc)
    · exact hnow h (.postRefused hpc)
  | push =>
    simp only [hpc] at h
    refine hsection h fun l => ?_
    unfold pushLocked
    split
    next hroom => exact ⟨_, _, .push hpc hroom.2 hroom.1, rfl⟩
    next hfull => exact ⟨_, _, .pushFull hpc hfull, rfl⟩
  | signal =>
    simp only [hpc] at h
    exact hnow h (.signal hpc)
  | freeSlot ret =>
    simp only [hpc] at h
    exact hsection h fun l => ⟨_, _, .freeSlot hpc, rfl⟩
  | await =>
    simp only [hpc] at h
    split at h
    · exact hnow h (.timeOut hpc)
    · split at h
      · exact hnow h (.timeOut hpc)
      · cases h
    next n hn => exact hnow h (.wake hpc hn)
  | settle waited =>
    simp only [hpc] at h
    refine hsection h fun l => ?_
    unfold settleWaiter
    cases waited with
    | true => exact ⟨_, _, .settle hpc, by simp; rfl⟩
    | false =>
      cases hdone : c.context.done with
      | true => exact ⟨_, _, .settleDone hpc hdone, by simp; rfl⟩
      | false => exact ⟨_, _, .abandon hpc hdone, by simp; rfl⟩
  | unqueue =>
    simp only [hpc] at h
    exact hnow h (.unqueue hpc)
  | rearm =>
    simp only [hpc] at h
    exact hnow h (.rearm hpc)
  | leaving outcome =>
    simp only [hpc] at h
    exact hnow h (.leave hpc)
  | returned outcome =>
    simp only [hpc] at h
    cases h

theorem loopStep_cases (h : s.loopStep config = some s') : s.Does (LoopMove config) s' := by
  unfold loopStep at h
  cases hpc : s.loop with
  | idle =>
    simp only [hpc] at h
    cases h
  | bind =>
    simp only [hpc] at h
    obtain rfl := Option.some.inj h
    exact .now (.bind hpc)
  | wait =>
    simp only [hpc] at h
    split at h
    next hsem =>
      obtain rfl := Option.some.inj h
      have hmove : LoopMove config s { s with queueSem := none, loop := .pop } :=
        .wait hpc (by rw [hsem]) fun m hm => by rw [hsem] at hm; cases hm
      rw [← hsem] at hmove
      exact .now hmove
    · cases h
    next n hsem =>
      obtain rfl := Option.some.inj h
      exact .now (.wait hpc (by rw [hsem]; rfl)
        fun m hm => ⟨n, Option.some.inj (hm.symm.trans hsem), rfl⟩)
  | pop =>
    simp only [hpc] at h
    refine .guarded h fun l _ => ?_
    unfold popLocked
    dsimp only
    split
    next hpop =>
      have hmove : LoopMove config { s with lock := l } _ := .popNone hpc hpop
      by_cases hs : s.state = .running <;> simpa [hs] using hmove
    next message rest hpop => exact .pop hpc hpop
  | dispatch message =>
    simp only [hpc] at h
    obtain rfl := Option.some.inj h
    exact .now (.dispatch hpc)
  | check message =>
    simp only [hpc] at h
    obtain rfl := Option.some.inj h
    split
    next hs => exact .now (.allow hpc hs)
    next hs => exact .now (.refuse hpc hs)
  | handle message =>
    simp only [hpc] at h
    cases message <;> obtain rfl := Option.some.inj h
    · exact .now (.handleAsync hpc)
    · exact .now (.handleSync hpc)
    · exact .now (.handleTimer hpc)
  | runDue =>
    simp only [hpc] at h
    exact .guarded h fun l _ => .takeDue hpc
  | runDelayed calls =>
    cases calls <;> simp only [hpc] at h <;> obtain rfl := Option.some.inj h
    · exact .now (.ranAll hpc)
    · exact .now (.runDelayed hpc)
  | runAsync i =>
    simp only [hpc] at h
    obtain rfl := Option.some.inj h
    exact .now (.runAsync hpc)
  | runSync i =>
    simp only [hpc] at h
    obtain rfl := Option.some.inj h
    exact .now (.runSync hpc)
  | complete drained i status =>
    simp only [hpc] at h
    exact .guarded h fun l _ => .complete hpc
  | recycle drained message =>
    simp only [hpc] at h
    cases message <;> obtain rfl := Option.some.inj h
    · exact .now (.recycleAsync hpc)
    · exact .now (.recycleSync hpc)
    · exact .now (.recycleTimer hpc)
  | dispatched =>
    simp only [hpc] at h
    obtain rfl := Option.some.inj h
    exact .now (.dispatched hpc)
  | drain =>
    simp only [hpc] at h
    refine .guarded h fun l _ => ?_
    unfold drainLocked
    dsimp only
    split
    next hpop => exact .drainNone hpc hpop
    next message rest hpop => exact .drain hpc hpop
  | unbind =>
    simp only [hpc] at h
    obtain rfl := Option.some.inj h
    exact .now (.unbind hpc)
  | exit =>
    simp only [hpc] at h
    obtain rfl := Option.some.inj h
    exact .now (.exit hpc)

theorem stay {pc : StopPc} (h : s.stop = pc) : { s with stop := pc } = s := by
  subst h
  rfl

theorem stopStep_cases {timeUp : Bool} (h : s.stopStep config timeUp = some s') :
    s.Does (fun s s' => StopMove config s timeUp s') s' := by
  unfold stopStep at h
  cases hpc : s.stop with
  | idle =>
    simp only [hpc] at h
    cases h
  | checkOnLoop =>
    simp only [hpc] at h
    obtain rfl := Option.some.inj h
    split
    next hon => exact .now (.onLoop hpc hon)
    next hoff => exact .now (.offLoop hpc (Bool.eq_false_iff.mpr hoff))
  | resume =>
    simp only [hpc] at h
    obtain rfl := Option.some.inj h
    exact .now (.resume hpc)
  | stopTimer =>
    simp only [hpc] at h
    obtain rfl := Option.some.inj h
    exact .now (.stopTimer hpc)
  | dropDelayed =>
    simp only [hpc] at h
    exact .guarded h fun l _ => .dropDelayed hpc
  | wakeLoop =>
    simp only [hpc] at h
    obtain rfl := Option.some.inj h
    exact .now (.wakeLoop hpc)
  | awaitLoop =>
    simp only [hpc] at h
    obtain rfl := Option.some.inj h
    split
    · split
      next htime =>
        subst htime
        exact .now (.giveUp (.inl hpc))
      · rw [stay hpc]
        exact .now .poll
    next hended => exact .now (.loopEnded hpc (Bool.eq_false_iff.mpr hended))
  | checkOffLoop =>
    simp only [hpc] at h
    obtain rfl := Option.some.inj h
    split
    next hon => exact .now (.checkedOnLoop hpc hon)
    next hoff => exact .now (.checkedOffLoop hpc (Bool.eq_false_iff.mpr hoff))
  | awaitDispatch =>
    simp only [hpc] at h
    obtain rfl := Option.some.inj h
    split
    next hover =>
      by_cases hzero : s.dispatching = 0
      · exact .now (.dispatchEnded hpc hzero)
      · obtain rfl : timeUp = true := hover.resolve_left hzero
        exact .now (.dispatchTimedOut hpc hzero)
    · rw [stay hpc]
      exact .now .poll
  | awaitCalls =>
    simp only [hpc] at h
    obtain rfl := Option.some.inj h
    split
    · split
      next htime =>
        subst htime
        exact .now (.giveUp (.inr (.inl hpc)))
      · rw [stay hpc]
        exact .now .poll
    next hzero => exact .now (.callsEnded hpc (not_not.mp hzero))
  | awaitTimerMessage =>
    simp only [hpc] at h
    obtain rfl := Option.some.inj h
    split
    · split
      next htime =>
        subst htime
        exact .now (.giveUp (.inr (.inr (.inl hpc))))
      · exact .now (.waitAgain (.inl hpc))
    next hback => exact .now (.timerMessageBack hpc (Bool.eq_false_iff.mpr hback))
  | awaitWaiters =>
    simp only [hpc] at h
    refine .guarded h fun l _ => ?_
    split
    · split
      next htime =>
        subst htime
        exact .giveUp (.inr (.inr (.inr hpc)))
      · exact .waitAgain (.inr hpc)
    next hused => exact .waitersEnded hpc hused
  | releaseTimer =>
    simp only [hpc] at h
    obtain rfl := Option.some.inj h
    exact .now (.releaseTimer hpc)
  | releaseWaiters =>
    simp only [hpc] at h
    obtain rfl := Option.some.inj h
    exact .now (.releaseWaiters hpc)
  | releaseQueue =>
    simp only [hpc] at h
    obtain rfl := Option.some.inj h
    exact .now (.releaseQueue hpc)
  | releaseLock =>
    simp only [hpc] at h
    obtain rfl := Option.some.inj h
    exact .now (.releaseLock hpc)
  | releaseMessage =>
    simp only [hpc] at h
    obtain rfl := Option.some.inj h
    exact .now (.releaseMessage hpc)
  | clearQueued =>
    simp only [hpc] at h
    obtain rfl := Option.some.inj h
    exact .now (.clearQueued hpc)
  | finish =>
    simp only [hpc] at h
    obtain rfl := Option.some.inj h
    exact .now (.finish hpc)

/-- **Every step takes the lock or is a move.** -/
theorem step_cases {a : Act} (h : s.step? config a = some s') :
    s.Does (fun s s' => Move config s a s') s' := by
  cases a with
  | init created =>
    obtain rfl := Option.some.inj h
    unfold init
    split
    · exact .now .nothing
    next hnew => exact .now (.init (not_not.mp fun hs => hnew (.inl hs)))
  | invoke request task =>
    simp only [step?] at h
    split at h
    · cases h
    next hreq =>
      obtain rfl := Option.some.inj h
      exact .now (.invoke hreq)
  | expire task =>
    simp only [step?] at h
    split at h
    next deadline htimer =>
      split at h
      next hdue =>
        obtain rfl := Option.some.inj h
        exact .now (.expire htimer hdue)
      · cases h
    · cases h
  | call i choice =>
    refine (callStep_cases h).mono ?_
    rintro s s' ⟨c, s₁, c', hc, hm, rfl⟩
    exact .call hc hm
  | loop =>
    simp only [step?] at h
    split at h
    · cases h
    next hfree =>
      obtain htake | ⟨l, hl, hm⟩ := loopStep_cases h
      · exact .inl htake
      · exact .inr ⟨l, hl, .loop (Bool.eq_false_of_not_eq_true hfree) hm⟩
  | bindLoopTask =>
    simp only [step?] at h
    split at h
    next hidle =>
      obtain rfl := Option.some.inj h
      exact .now (.bindLoopTask hidle.1 hidle.2.1)
    · cases h
  | receive k =>
    simp only [step?] at h
    split at h
    next hidle =>
      obtain ⟨message, hk, rfl⟩ := Option.map_eq_some_iff.mp h
      exact .now (.receive hidle.1 hidle.2.1 hk (Bool.eq_false_of_not_eq_true hidle.2.2))
    · cases h
  | callStop task =>
    simp only [step?] at h
    split at h
    · cases h
    next htask =>
      split at h
      next hs =>
        obtain rfl := Option.some.inj h
        refine .now (.callStop hs fun heq => ?_)
        by_contra hown
        exact htask ⟨heq, fun hfree => hown hfree.1⟩
      · obtain rfl := Option.some.inj h
        exact .now .nothing
  | stop timeUp => exact (stopStep_cases h).mono fun _ _ hm => .stop hm
  | tick =>
    obtain rfl := Option.some.inj h
    exact .now .tick

end LosEventHandler

end CallManagerMini
