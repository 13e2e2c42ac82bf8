import CallManagerMini.HandlerMoves
import CallManagerMini.Lib.SlotPool

/-! # Who can still reach the handler

`Stop` tells by five signals whether somebody is still inside the handler.  Here is what each of
them stands for: `activeCalls_` counts the calls between their entry and their return,
`dispatching_` the `Dispatch` that is under way, `timerMessageQueued_` says that the timer
message is on its way (`inFlight`), and a slot in `waiterInUse_` has a holder, whose message is
on its way as long as it waits unanswered (`holder`, `Call.hold`).
-/

namespace CallManagerMini

open SlotPool (Phase)

/-! ## Where a call stands -/

namespace Call

/-- It is counted in `activeCalls_`. -/
def active (c : Call) : Bool :=
  match c.pc with
  | .called | .returned _ => false
  | _ => true

/-- It found the handler running, and has not begun to leave. -/
def admitted (c : Call) : Bool :=
  match c.pc with
  | .called | .counted | .leaving _ | .returned _ => false
  | _ => true

theorem active_of_admitted (c : Call) (h : c.admitted = true) : c.active = true := by
  unfold active
  split
  next hpc => simp [admitted, hpc] at h
  next hpc => simp [admitted, hpc] at h
  · rfl

/-- It has raised `timerMessageQueued_`, and nobody else has the timer message. -/
def holdsTimerMessage (c : Call) : Bool :=
  match c.request, c.pc with
  | .onTimerExpired, .enqueue | .onTimerExpired, .post | .onTimerExpired, .push
  | .onTimerExpired, .unqueue => true
  | _, _ => false

/-- The waiter slot it holds, and how far it has come with it.  A caller that gave up leaves the
slot to its message. -/
def hold (c : Call) : Option (Nat × Phase) :=
  match c.request with
  | .postSyncTask _ =>
    match c.pc with
    | .allocate | .enqueue | .post | .push | .freeSlot _ => some (c.context.slot, .claimed)
    | .signal | .await | .settle false =>
      some (c.context.slot, if c.context.done then .signalled else .sent)
    | .settle true => some (c.context.slot, .woken)
    | .leaving _ | .returned _ =>
      if c.context.abandoned && !c.context.done then some (c.context.slot, .sent) else none
    | _ => none
  | _ => none

/-- It stands where its request and the way the handler is driven can lead it. -/
def Fits (config : LosEventHandler.Config) (c : Call) : Prop :=
  match c.pc with
  | .allocate => c.request ≠ .onTimerExpired
  | .onLoop | .inPlace | .acquire | .freeSlot _ | .await | .settle _ =>
    ∃ timeoutMs, c.request = .postSyncTask timeoutMs
  | .exchange | .unqueue | .rearm => c.request = .onTimerExpired
  | .post => config.poster = true
  | .push | .signal => config.poster = false
  | _ => True

/-- Its context says what its place says: it gives up last, a message nobody has yet is not done,
and a signal taken is its own. -/
def Tidy (c : Call) : Prop :=
  (c.context.abandoned = true → ∃ outcome, c.pc = .leaving outcome ∨ c.pc = .returned outcome) ∧
  (∀ slot, c.hold = some (slot, .claimed) → c.context.done = false) ∧
  (c.pc = .settle true → c.context.done = true)

end Call

/-! ## Where the loop stands -/

/-- The message the loop has taken and not answered. -/
def LoopPc.hand : LoopPc → Option LosEventMessage
  | .dispatch message | .check message | .handle message | .recycle _ message => some message
  | .runSync i | .complete _ i _ => some (.syncCall i)
  | _ => none

/-- `Dispatch` is under way. -/
def LoopPc.inDispatch : LoopPc → Bool
  | .check _ | .handle _ | .runDue | .runDelayed _ | .runAsync _ | .runSync _
  | .complete false _ _ | .recycle false _ | .dispatched => true
  | _ => false

/-- The places of a task that calls `Dispatch` and does not run the loop. -/
def LoopPc.external : LoopPc → Bool
  | .idle | .dispatch _ => true
  | pc => pc.inDispatch

/-- `Dispatch` found the handler running and has the timer message, and is not through with the
section of `RunDueTasks`. -/
def LoopPc.inTimerFire : LoopPc → Bool
  | .handle .timerFire | .runDue => true
  | _ => false

/-! ## How far `Stop` has come -/

/-- The waits `Stop` has behind it, and then the objects it has released. -/
def StopPc.stage : StopPc → Nat
  | .awaitCalls => 1
  | .awaitTimerMessage => 2
  | .awaitWaiters => 3
  | .releaseTimer => 4
  | .releaseWaiters => 5
  | .releaseQueue => 6
  | .releaseLock => 7
  | .releaseMessage => 8
  | .clearQueued | .finish => 9
  | _ => 0

namespace LosEventHandler

/-- A handler that was not initialized, or that is stopped, has no objects. -/
def stage (s : LosEventHandler) : Nat := if s.state = .uninit then 9 else s.stop.stage

/-- How often the message is on its way: in the ring, with the owner of the loop, or in the hand
of the loop. -/
def inFlight (s : LosEventHandler) (message : LosEventMessage) : Nat :=
  s.ring.toList.count message + s.posted.count message +
    if s.loop.hand = some message then 1 else 0

/-- The slot the call `i` holds. -/
def holder (s : LosEventHandler) (i : Nat) : Option (Nat × Phase) := s.calls[i]?.bind Call.hold

/-! ## The invariant -/

/-- **What the signals of `Stop` stand for**, in every state of every run. -/
structure Inv (config : Config) (s : LosEventHandler) : Prop where
  fits : ∀ c ∈ s.calls, c.Fits config
  tidy : ∀ c ∈ s.calls, c.Tidy
  /-- `activeCalls_`. -/
  active : s.activeCalls = s.calls.countP Call.active
  /-- `dispatching_`. -/
  dispatching : s.dispatching = s.loop.inDispatch.toNat
  /-- `timerMessageQueued_`. -/
  queued : s.calls.countP Call.holdsTimerMessage + s.inFlight .timerFire =
    s.timerMessageQueued.toNat
  /-- `waiterInUse_` and `waiterSems_`. -/
  pool : SlotPool.Valid s.holder s.waiterInUse s.waiterSems
  sent : ∀ i, s.inFlight (.syncCall i) = SlotPool.sentCount (s.holder i)
  /-- `loopRunning_`. -/
  ended : config.poster = false → s.loopRunning = false → s.loop = .idle
  external : config.poster = true → s.loop.external = true
  bound : s.loopTaskId = 0 ∨ s.loopTaskId = config.loopTask
  stopping : s.stop ≠ .idle → s.state = .stopping
  driven : s.stop = .checkOffLoop ∨ s.stop = .awaitDispatch → config.poster = true
  noLoop : 1 ≤ s.stage → config.poster = false → s.loop = .idle
  noCalls : 2 ≤ s.stage → ∀ c ∈ s.calls, c.admitted = false
  noTimerMessage : 3 ≤ s.stage → s.timerMessageQueued = false
  noWaiters : 4 ≤ s.stage → true ∉ s.waiterInUse
  timer : s.stage ≤ 4 → s.timer.isSome = true
  waiters : s.stage ≤ 5 → s.waiterInUse.length = config.maxSyncWaiters
  queueSem : s.stage ≤ 6 → config.poster = false → s.queueSem.isSome = true
  lock : s.stage ≤ 7 → s.lock.isSome = true
  timerMessage : s.stage ≤ 8 → s.timerMessage = true

variable {config : Config} {s s' s₁ : LosEventHandler} {i : Nat} {c c' : Call}

/-- The invariant does not speak of who holds the lock. -/
theorem Inv.locked (h : s.Inv config) {l : Option (Option Agent)} (hl : l.isSome = s.lock.isSome) :
    Inv config { s with lock := l } :=
  { h with lock := fun hs => hl.trans (h.lock hs) }

/-! ## What a call leaves alone -/

/-- What the calls never change: the states of the handler, of the loop and of `Stop`, and which
objects there are. -/
structure Frame (s s' : LosEventHandler) : Prop where
  state : s'.state = s.state
  stop : s'.stop = s.stop
  stopTask : s'.stopTask = s.stopTask
  loop : s'.loop = s.loop
  loopRunning : s'.loopRunning = s.loopRunning
  loopTaskId : s'.loopTaskId = s.loopTaskId
  dispatching : s'.dispatching = s.dispatching
  calls : s'.calls = s.calls
  lock : s'.lock = s.lock
  timer : s'.timer.isSome = s.timer.isSome
  queueSem : s'.queueSem.isSome = s.queueSem.isSome
  waiters : s'.waiterInUse.length = s.waiterInUse.length
  timerMessage : s'.timerMessage = s.timerMessage

theorem startTimer_eq (config : Config) (delayMs : BitVec 32) (s : LosEventHandler) :
    ∃ t : Option OsTimer, t.isSome = s.timer.isSome ∧
      s.startTimer config delayMs = { s with timer := t } := by
  unfold startTimer
  split
  · exact ⟨s.timer, rfl, rfl⟩
  · exact ⟨_, Option.isSome_map, rfl⟩

theorem armTimerLocked_isSome (config : Config) (s : LosEventHandler) :
    (s.armTimerLocked config).timer.isSome = s.timer.isSome := by
  unfold armTimerLocked
  split
  · exact Option.isSome_map
  · obtain ⟨t, ht, heq⟩ := startTimer_eq config _ s
    rw [heq]
    exact ht

theorem armTimerLocked_eq (config : Config) (s : LosEventHandler) :
    s.armTimerLocked config = { s with timer := (s.armTimerLocked config).timer } := by
  unfold armTimerLocked
  split
  · rfl
  · obtain ⟨t, -, heq⟩ := startTimer_eq config _ s
    rw [heq]

theorem armTimerLocked_ite (config : Config) (s : LosEventHandler) (p : Prop) [Decidable p] :
    (if p then s.armTimerLocked config else s) =
        { s with timer := (if p then s.armTimerLocked config else s).timer } ∧
      (if p then s.armTimerLocked config else s).timer.isSome = s.timer.isSome := by
  split
  · exact ⟨armTimerLocked_eq .., armTimerLocked_isSome ..⟩
  · exact ⟨rfl, rfl⟩

theorem enterDelayed_eq (config : Config) (i : Nat) (delayMs : BitVec 32) (s : LosEventHandler) :
    ∃ (t : Option OsTimer) (l : List DelayedTask), t.isSome = s.timer.isSome ∧
      s.enterDelayed config i delayMs =
        { s with timer := t, delayed := l, lastTaskId := s.nextTaskId } := by
  refine ⟨_, _, ?_, (armTimerLocked_ite config _ _).1⟩
  exact (armTimerLocked_ite config _ _).2

theorem eraseDelayed_eq (config : Config) (k : Nat) (s : LosEventHandler) :
    ∃ (t : Option OsTimer) (es : List HandlerEvent), t.isSome = s.timer.isSome ∧
      s.eraseDelayed config k =
        { s with timer := t, delayed := s.delayed.eraseIdx k, log := s.log ++ es } := by
  refine ⟨_, _, ?_, (armTimerLocked_ite config _ _).1⟩
  exact (armTimerLocked_ite config _ _).2

/-- What `Stop` looks at is as it was, apart from the calls. -/
structure SameSignals (s s' : LosEventHandler) : Prop where
  activeCalls : s'.activeCalls = s.activeCalls
  timerMessageQueued : s'.timerMessageQueued = s.timerMessageQueued
  waiterInUse : s'.waiterInUse = s.waiterInUse
  waiterSems : s'.waiterSems = s.waiterSems
  ring : s'.ring = s.ring
  posted : s'.posted = s.posted
  loop : s'.loop = s.loop

theorem SameSignals.refl (s : LosEventHandler) : SameSignals s s :=
  ⟨rfl, rfl, rfl, rfl, rfl, rfl, rfl⟩

theorem sameSignals_startTimer (config : Config) (delayMs : BitVec 32) (s : LosEventHandler) :
    SameSignals s (s.startTimer config delayMs) := by
  obtain ⟨t, -, heq⟩ := startTimer_eq config delayMs s
  rw [heq]
  exact ⟨rfl, rfl, rfl, rfl, rfl, rfl, rfl⟩

theorem sameSignals_enterDelayed (config : Config) (i : Nat) (delayMs : BitVec 32)
    (s : LosEventHandler) : SameSignals s (s.enterDelayed config i delayMs) := by
  obtain ⟨t, l, -, heq⟩ := enterDelayed_eq config i delayMs s
  rw [heq]
  exact ⟨rfl, rfl, rfl, rfl, rfl, rfl, rfl⟩

theorem sameSignals_eraseDelayed (config : Config) (k : Nat) (s : LosEventHandler) :
    SameSignals s (s.eraseDelayed config k) := by
  obtain ⟨t, es, -, heq⟩ := eraseDelayed_eq config k s
  rw [heq]
  exact ⟨rfl, rfl, rfl, rfl, rfl, rfl, rfl⟩

theorem CallMove.frame (hm : CallMove config i s c s₁ c') : Frame s s₁ := by
  cases hm with
  | insert =>
    obtain ⟨t, l, ht, heq⟩ := enterDelayed_eq config i _ s
    rw [heq]
    exact ⟨rfl, rfl, rfl, rfl, rfl, rfl, rfl, rfl, rfl, ht, rfl, rfl, rfl⟩
  | remove =>
    obtain ⟨t, es, ht, heq⟩ := eraseDelayed_eq config _ s
    rw [heq]
    exact ⟨rfl, rfl, rfl, rfl, rfl, rfl, rfl, rfl, rfl, ht, rfl, rfl, rfl⟩
  | rearm =>
    obtain ⟨t, ht, heq⟩ := startTimer_eq config _ s
    rw [heq]
    exact ⟨rfl, rfl, rfl, rfl, rfl, rfl, rfl, rfl, rfl, ht, rfl, rfl, rfl⟩
  | signal => exact ⟨rfl, rfl, rfl, rfl, rfl, rfl, rfl, rfl, rfl, rfl, Option.isSome_map, rfl, rfl⟩
  | acquire | freeSlot | settle | settleDone =>
    exact ⟨rfl, rfl, rfl, rfl, rfl, rfl, rfl, rfl, rfl, rfl, rfl, List.length_set, rfl⟩
  | _ => exact ⟨rfl, rfl, rfl, rfl, rfl, rfl, rfl, rfl, rfl, rfl, rfl, rfl, rfl⟩

/-! ## The moves of a call -/

theorem CallMove.request (hm : CallMove config i s c s₁ c') : c'.request = c.request := by
  cases hm <;> rfl

theorem fits_admitted (c : Call) : (c.goto c.request.admitted).Fits config := by
  unfold HandlerRequest.admitted
  cases hreq : c.request with
  | postAsyncTask delayMs =>
    dsimp only
    split
    · simp [Call.Fits, hreq]
    · trivial
  | removeAsyncTask taskId =>
    dsimp only
    split <;> trivial
  | postSyncTask timeoutMs => exact ⟨timeoutMs, hreq⟩
  | onTimerExpired => exact hreq

theorem fits_enqueued (c : Call) (ret : RetCode) :
    (c.goto (c.request.enqueued ret)).Fits config := by
  unfold HandlerRequest.enqueued
  cases hreq : c.request with
  | postAsyncTask | removeAsyncTask => trivial
  | postSyncTask timeoutMs =>
    dsimp only
    split <;> exact ⟨timeoutMs, hreq⟩
  | onTimerExpired =>
    dsimp only
    split
    · trivial
    · exact hreq

theorem CallMove.fits (hm : CallMove config i s c s₁ c') (h : c.Fits config) : c'.Fits config := by
  cases hm with
  | allow => exact fits_admitted c
  | starve | enqueueStopped | post | postRefused | pushFull | signal => exact fits_enqueued c _
  | onLoop hpc | offLoop hpc | wake hpc | timeOut hpc =>
    simp only [Call.Fits, hpc] at h
    exact h
  | acquire hpc =>
    simp only [Call.Fits, hpc] at h
    obtain ⟨timeoutMs, hreq⟩ := h
    simp [Call.Fits, hreq]
  | enqueue =>
    cases hposter : config.poster <;> simp [Call.Fits, hposter]
  | push hpc | unqueue hpc =>
    simp only [Call.Fits, hpc] at h
    exact h
  | _ => trivial

/-- A call is admitted only while the handler runs. -/
theorem CallMove.admitted (hm : CallMove config i s c s₁ c') (h : c'.admitted = true) :
    c.admitted = true ∨ s.state = .running := by
  cases hm with
  | allow _ hs => exact .inr hs
  | enter | refuse | leave => cases h
  | _ hpc => exact .inl (by simp [Call.admitted, hpc])

theorem active_admitted (c : Call) : (c.goto c.request.admitted).active = true := by
  unfold HandlerRequest.admitted
  cases c.request with
  | postAsyncTask | removeAsyncTask =>
    dsimp only
    split <;> rfl
  | postSyncTask | onTimerExpired => rfl

theorem active_enqueued (c : Call) (ret : RetCode) :
    (c.goto (c.request.enqueued ret)).active = true := by
  unfold HandlerRequest.enqueued
  cases c.request with
  | postAsyncTask | removeAsyncTask => rfl
  | postSyncTask | onTimerExpired =>
    dsimp only
    split <;> rfl

/-- `activeCalls_` follows the call. -/
theorem CallMove.active (hm : CallMove config i s c s₁ c')
    (h : c.active = true → 1 ≤ s.activeCalls) :
    s₁.activeCalls + c.active.toNat = s.activeCalls + c'.active.toNat := by
  have hsame : SameSignals s s₁ → c.active = true → c'.active = true →
      s₁.activeCalls + c.active.toNat = s.activeCalls + c'.active.toNat := by
    intro hs hc hc'
    rw [hs.activeCalls, hc, hc']
  cases hm with
  | enter hpc => simp [Call.active, hpc]
  | leave hpc =>
    have hpos := h (by simp [Call.active, hpc])
    simp [Call.active, hpc, note]
    omega
  | allow hpc => exact hsame (.refl s) (by simp [Call.active, hpc]) (active_admitted c)
  | starve hpc | enqueueStopped hpc | postRefused hpc | pushFull hpc =>
    exact hsame (.refl s) (by simp [Call.active, hpc]) (active_enqueued c _)
  | signal hpc =>
    exact hsame ⟨rfl, rfl, rfl, rfl, rfl, rfl, rfl⟩ (by simp [Call.active, hpc])
      (active_enqueued c _)
  | insert hpc =>
    exact hsame (sameSignals_enterDelayed ..) (by simp [Call.active, hpc]) rfl
  | remove hpc => exact hsame (sameSignals_eraseDelayed ..) (by simp [Call.active, hpc]) rfl
  | rearm hpc => exact hsame (sameSignals_startTimer ..) (by simp [Call.active, hpc]) rfl
  | post hpc =>
    have hactive := active_enqueued c .success
    simp [Call.active, hpc] at hactive ⊢
    simp [hactive]
  | enqueue hpc => cases config.poster <;> simp [Call.active, hpc]
  | _ hpc => simp [Call.active, hpc, note, releaseWaiter, pollWaiterSem]

theorem message_eq_timerFire : c.message i = .timerFire ↔ c.request = .onTimerExpired := by
  unfold Call.message
  cases c.request <;> simp

theorem message_eq_syncCall {j : Nat} :
    c.message i = .syncCall j ↔ i = j ∧ ∃ timeoutMs, c.request = .postSyncTask timeoutMs := by
  unfold Call.message
  cases c.request <;> simp

theorem SameSignals.inFlight (h : SameSignals s s') (m : LosEventMessage) :
    s'.inFlight m = s.inFlight m := by
  rw [LosEventHandler.inFlight, LosEventHandler.inFlight, h.ring, h.posted, h.loop]

theorem inFlight_post (message m : LosEventMessage) :
    inFlight { s with posted := s.posted ++ [message] } m =
      s.inFlight m + if message = m then 1 else 0 := by
  simp only [inFlight, List.count_append, List.count_singleton, beq_iff_eq]
  omega

theorem inFlight_push (message m : LosEventMessage) (h : s.ring.count < s.ring.slots.length) :
    inFlight { s with ring := s.ring.push message h } m =
      s.inFlight m + if message = m then 1 else 0 := by
  simp only [inFlight, RingBuffer.toList_push, List.count_append, List.count_singleton, beq_iff_eq]
  omega

/-- Only a call that enqueues puts a message on its way, and only its own. -/
theorem CallMove.inFlight (hm : CallMove config i s c s₁ c') {m : LosEventMessage}
    (hne : c.message i ≠ m) : s₁.inFlight m = s.inFlight m := by
  cases hm with
  | post => exact (inFlight_post ..).trans (by rw [if_neg hne, Nat.add_zero])
  | push => exact (inFlight_push ..).trans (by rw [if_neg hne, Nat.add_zero])
  | insert => exact (sameSignals_enterDelayed ..).inFlight m
  | remove => exact (sameSignals_eraseDelayed ..).inFlight m
  | rearm => exact (sameSignals_startTimer ..).inFlight m
  | _ => rfl

theorem hold_of_ne (h : ∀ timeoutMs, c.request ≠ .postSyncTask timeoutMs) : c.hold = none := by
  unfold Call.hold
  cases hreq : c.request with
  | postSyncTask timeoutMs => exact absurd hreq (h timeoutMs)
  | _ => rfl

/-- A call that holds no slot and does not go for one. -/
theorem hold_none {pc : CallPc} (hpc : c.pc = pc) (hfree : pc = .called ∨ pc = .counted ∨
    pc = .insert ∨ pc = .remove ∨ pc = .onLoop ∨ pc = .inPlace ∨ pc = .acquire ∨ pc = .exchange ∨
    pc = .unqueue ∨ pc = .rearm) : c.hold = none := by
  unfold Call.hold
  rw [hpc]
  rcases hfree with rfl | rfl | rfl | rfl | rfl | rfl | rfl | rfl | rfl | rfl <;>
    cases c.request <;> rfl

/-- What a move of the call `i` does to the slots, if it holds `x` before: what it holds after. -/
inductive SlotMove (i : Nat) (s s₁ : LosEventHandler) (x : Option (Nat × Phase)) :
    Option (Nat × Phase) → Prop where
  | stay : s₁.waiterInUse = s.waiterInUse → s₁.waiterSems = s.waiterSems →
    s₁.inFlight (.syncCall i) = s.inFlight (.syncCall i) → SlotMove i s s₁ x x
  | claim {slot : Nat} : x = none → s.waiterInUse[slot]? = some false →
    s₁.waiterInUse = s.waiterInUse.set slot true → s₁.waiterSems = s.waiterSems →
    s₁.inFlight (.syncCall i) = s.inFlight (.syncCall i) →
    SlotMove i s s₁ x (some (slot, .claimed))
  | send {slot : Nat} : x = some (slot, .claimed) → s₁.waiterInUse = s.waiterInUse →
    s₁.waiterSems = s.waiterSems →
    s₁.inFlight (.syncCall i) = s.inFlight (.syncCall i) + 1 →
    SlotMove i s s₁ x (some (slot, .sent))
  | wake {slot n : Nat} {p : Phase} : x = some (slot, p) →
    s.waiterSems[slot]? = some (n + 1) → s₁.waiterInUse = s.waiterInUse →
    s₁.waiterSems = s.waiterSems.set slot n →
    s₁.inFlight (.syncCall i) = s.inFlight (.syncCall i) →
    SlotMove i s s₁ x (some (slot, .woken))
  | release {slot : Nat} {p : Phase} : x = some (slot, p) → p = .claimed ∨ p = .woken →
    s₁.waiterInUse = s.waiterInUse.set slot false → s₁.waiterSems = s.waiterSems →
    s₁.inFlight (.syncCall i) = s.inFlight (.syncCall i) → SlotMove i s s₁ x none
  | collect {slot : Nat} : x = some (slot, .signalled) →
    s₁.waiterInUse = s.waiterInUse.set slot false →
    s₁.waiterSems = s.waiterSems.modify slot (fun n => n - 1) →
    s₁.inFlight (.syncCall i) = s.inFlight (.syncCall i) → SlotMove i s s₁ x none

theorem CallMove.slotMove (hm : CallMove config i s c s₁ c') (hfits : c.Fits config)
    (htidy : c.Tidy) : SlotMove i s s₁ c.hold c'.hold := by
  have hsame : SameSignals s s₁ → c'.hold = c.hold → SlotMove i s s₁ c.hold c'.hold := by
    intro hs hhold
    rw [hhold]
    exact .stay hs.waiterInUse hs.waiterSems (hs.inFlight _)
  have hgoal : ∀ x, c'.hold = x → SlotMove i s s₁ c.hold x → SlotMove i s s₁ c.hold c'.hold := by
    rintro x rfl hx
    exact hx
  -- only a synchronous call has a slot, so the moves of the others are asides
  by_cases hsync : ∃ timeoutMs, c.request = .postSyncTask timeoutMs
  · obtain ⟨timeoutMs, hreq⟩ := hsync
    have hmessage : c.message i = .syncCall i := message_eq_syncCall.mpr ⟨rfl, timeoutMs, hreq⟩
    have hcaller : (∀ outcome, c.pc ≠ .leaving outcome ∧ c.pc ≠ .returned outcome) →
        c.context.abandoned = false := by
      intro hpc
      by_contra habandoned
      obtain ⟨outcome, hleft⟩ := htidy.1 (Bool.eq_true_of_not_eq_false habandoned)
      exact hleft.elim (hpc outcome).1 (hpc outcome).2
    cases hm with
    | acquire hpc hfree =>
      exact hgoal _ (by simp [Call.hold, hreq])
        (.claim (hold_none hpc (by simp)) hfree rfl rfl rfl)
    | freeSlot hpc =>
      have habandoned := hcaller (by simp [hpc])
      exact hgoal none (by simp [Call.hold, hreq, habandoned])
        (.release (by simp [Call.hold, hreq, hpc]) (.inl rfl) rfl rfl rfl)
    | post hpc =>
      have hhold : c.hold = some (c.context.slot, .claimed) := by simp [Call.hold, hreq, hpc]
      have hdone := htidy.2.1 _ hhold
      refine hgoal (some (c.context.slot, .sent)) (by simp [Call.hold, hreq, hdone])
        (.send hhold rfl rfl ?_)
      rw [inFlight_post, if_pos hmessage]
    | push hpc =>
      have hhold : c.hold = some (c.context.slot, .claimed) := by simp [Call.hold, hreq, hpc]
      have hdone := htidy.2.1 _ hhold
      refine hgoal (some (c.context.slot, .sent)) (by simp [Call.hold, hreq, hdone])
        (.send hhold rfl rfl ?_)
      rw [inFlight_push, if_pos hmessage]
    | wake hpc hsem =>
      exact hgoal _ (by simp [Call.hold, hreq])
        (.wake (by simp [Call.hold, hreq, hpc]; rfl) hsem rfl rfl rfl)
    | settle hpc =>
      have habandoned := hcaller (by simp [hpc])
      exact hgoal none (by simp [Call.hold, hreq, habandoned])
        (.release (by simp [Call.hold, hreq, hpc]) (.inr rfl) rfl rfl rfl)
    -- out of time, but answered meanwhile: the permit goes with the slot
    | settleDone hpc hdone =>
      have habandoned := hcaller (by simp [hpc])
      exact hgoal none (by simp [Call.hold, hreq, habandoned])
        (.collect (by simp [Call.hold, hreq, hpc, hdone]) rfl rfl rfl)
    -- the loop has the message: the slot stays with it until `Complete`
    | abandon hpc hdone => exact hsame (.refl s) (by simp [Call.hold, hreq, hpc, hdone])
    | enqueue hpc =>
      exact hsame (.refl s) (by cases config.poster <;> simp [Call.hold, hreq, hpc])
    | insert _ hreq' | remove _ hreq' | removeNone _ hreq' =>
      rw [hreq] at hreq'
      cases hreq'
    | exchange hpc | exchangeQueued hpc | unqueue hpc | rearm hpc =>
      simp only [Call.Fits, hpc, hreq] at hfits
      cases hfits
    | enter hpc | leave hpc =>
      exact hgoal c.hold (by simp [Call.hold, hreq, hpc]) (.stay rfl rfl rfl)
    | signal hpc =>
      exact hsame ⟨rfl, rfl, rfl, rfl, rfl, rfl, rfl⟩ (by simp [Call.hold, hreq, hpc])
    | runInPlace hpc =>
      have habandoned := hcaller (by simp [hpc])
      exact hsame ⟨rfl, rfl, rfl, rfl, rfl, rfl, rfl⟩ (by simp [Call.hold, hreq, hpc, habandoned])
    | allow hpc | allocate hpc | starve hpc | onLoop hpc | offLoop hpc | enqueueStopped hpc
    | postRefused hpc | pushFull hpc | timeOut hpc =>
      exact hsame (.refl s) (by simp [Call.hold, hreq, hpc, HandlerRequest.admitted])
    | refuse hpc | insertFull hpc | acquireNone hpc =>
      have habandoned := hcaller (by simp [hpc])
      exact hsame (.refl s) (by simp [Call.hold, hreq, hpc, habandoned])
  · have hne : ∀ timeoutMs, c.request ≠ .postSyncTask timeoutMs :=
      fun timeoutMs hreq => hsync ⟨timeoutMs, hreq⟩
    have hnone : c'.hold = c.hold := by
      rw [hold_of_ne hne, hold_of_ne (hm.request ▸ hne)]
    have hflight := hm.inFlight (m := .syncCall i) fun hmessage =>
      hsync (message_eq_syncCall.mp hmessage).2
    cases hm with
    | acquire hpc | freeSlot hpc | settle hpc | settleDone hpc | wake hpc =>
      simp only [Call.Fits, hpc] at hfits
      exact absurd hfits hsync
    | insert => exact hsame (sameSignals_enterDelayed ..) hnone
    | remove => exact hsame (sameSignals_eraseDelayed ..) hnone
    | rearm => exact hsame (sameSignals_startTimer ..) hnone
    | _ => exact hgoal _ hnone (.stay rfl rfl hflight)

section
variable {x y : Option (Nat × Phase)}

/-- **The moves of a call keep the slots apart.** -/
theorem SlotMove.pool (hm : SlotMove i s s₁ x y) (hx : s.holder i = x)
    (h : SlotPool.Valid s.holder s.waiterInUse s.waiterSems) :
    SlotPool.Valid (Function.update s.holder i y) s₁.waiterInUse s₁.waiterSems := by
  cases hm with
  | stay hused hsems =>
    rw [hused, hsems, ← hx, Function.update_eq_self]
    exact h
  | claim hnone hfree hused hsems =>
    rw [hused, hsems]
    exact h.claim (hx.trans hnone) hfree
  | send hslot hused hsems =>
    rw [hused, hsems]
    exact h.move (hx.trans hslot) (by decide) (by decide)
  | wake hslot hsem hused hsems =>
    obtain ⟨-, rfl⟩ := h.own_signal (hx.trans hslot) hsem
    rw [hused, hsems]
    exact h.advance (hx.trans hslot) rfl
  | release hslot hp hused hsems =>
    rw [hused, hsems]
    exact h.release (hx.trans hslot) (by rcases hp with rfl | rfl <;> decide)
  | collect hslot hused hsems =>
    have hone := h.signalled i _ (hx.trans hslot)
    rw [hused, hsems, List.modify_eq_set, hone]
    exact h.collect (hx.trans hslot)

/-- **The message of a call is on its way as long as its slot waits for it.** -/
theorem SlotMove.sent (hm : SlotMove i s s₁ x y) (hx : s.holder i = x)
    (h : SlotPool.Valid s.holder s.waiterInUse s.waiterSems) :
    s₁.inFlight (.syncCall i) + SlotPool.sentCount x =
      s.inFlight (.syncCall i) + SlotPool.sentCount y := by
  cases hm with
  | stay _ _ hflight => rw [hflight]
  | claim hnone _ _ _ hflight =>
    rw [hflight, hnone]
    rfl
  | send hslot _ _ hflight =>
    rw [hflight, hslot]
    rfl
  | wake hslot hsem _ _ hflight =>
    obtain ⟨rfl, -⟩ := h.own_signal (hx.trans hslot) hsem
    rw [hflight, hslot]
    rfl
  | release hslot hp _ _ hflight =>
    rw [hflight, hslot]
    rcases hp with rfl | rfl <;> rfl
  | collect hslot _ _ hflight =>
    rw [hflight, hslot]
    rfl

end

theorem holdsTimerMessage_of_ne (h : c.request ≠ .onTimerExpired) :
    c.holdsTimerMessage = false := by
  unfold Call.holdsTimerMessage
  cases hreq : c.request with
  | onTimerExpired => exact absurd hreq h
  | _ => rfl

/-- **The timer message is on its way, or with a call, as long as `timerMessageQueued_` is
raised.** -/
theorem CallMove.queued (hm : CallMove config i s c s₁ c') (hfits : c.Fits config)
    (hq : c.holdsTimerMessage = true → s.timerMessageQueued = true) :
    s₁.inFlight .timerFire + c'.holdsTimerMessage.toNat + s.timerMessageQueued.toNat =
      s.inFlight .timerFire + c.holdsTimerMessage.toNat + s₁.timerMessageQueued.toNat := by
  have hrest : s₁.inFlight .timerFire = s.inFlight .timerFire →
      s₁.timerMessageQueued = s.timerMessageQueued →
      c'.holdsTimerMessage = c.holdsTimerMessage →
      s₁.inFlight .timerFire + c'.holdsTimerMessage.toNat + s.timerMessageQueued.toNat =
        s.inFlight .timerFire + c.holdsTimerMessage.toNat + s₁.timerMessageQueued.toNat := by
    intro hflight hqueued hhold
    rw [hflight, hqueued, hhold]
  have hsame : SameSignals s s₁ → c'.holdsTimerMessage = c.holdsTimerMessage →
      s₁.inFlight .timerFire + c'.holdsTimerMessage.toNat + s.timerMessageQueued.toNat =
        s.inFlight .timerFire + c.holdsTimerMessage.toNat + s₁.timerMessageQueued.toNat :=
    fun hs => hrest (hs.inFlight _) hs.timerMessageQueued
  -- only the timer callback has the timer message
  by_cases hreq : c.request = .onTimerExpired
  · have hmessage : c.message i = .timerFire := message_eq_timerFire.mpr hreq
    cases hm with
    | allocate hpc | starve hpc =>
      simp only [Call.Fits, hpc] at hfits
      exact absurd hreq hfits
    | onLoop hpc | offLoop hpc | runInPlace hpc | acquire hpc | acquireNone hpc | freeSlot hpc
    | wake hpc | timeOut hpc | settle hpc | settleDone hpc | abandon hpc =>
      simp only [Call.Fits, hpc, hreq] at hfits
      obtain ⟨timeoutMs, hfits⟩ := hfits
      cases hfits
    | insert _ hreq' | remove _ hreq' | removeNone _ hreq' =>
      rw [hreq] at hreq'
      cases hreq'
    | exchange hpc hfree =>
      simp [Call.holdsTimerMessage, hreq, hpc, hfree, LosEventHandler.inFlight]
    | unqueue hpc =>
      have hraised := hq (by simp [Call.holdsTimerMessage, hreq, hpc])
      simp [Call.holdsTimerMessage, hreq, hpc, hraised, LosEventHandler.inFlight]
    | post hpc =>
      rw [inFlight_post, if_pos hmessage]
      simp [Call.holdsTimerMessage, hreq, hpc]
    | push hpc =>
      rw [inFlight_push, if_pos hmessage]
      simp [Call.holdsTimerMessage, hreq, hpc]
    | enqueue hpc =>
      exact hsame (.refl s) (by cases config.poster <;> simp [Call.holdsTimerMessage, hreq, hpc])
    | signal hpc =>
      exact hsame ⟨rfl, rfl, rfl, rfl, rfl, rfl, rfl⟩
        (by simp [Call.holdsTimerMessage, hreq, hpc])
    | rearm hpc =>
      exact hsame (sameSignals_startTimer ..) (by simp [Call.holdsTimerMessage, hreq, hpc])
    | enter hpc | leave hpc => exact hrest rfl rfl (by simp [Call.holdsTimerMessage, hreq, hpc])
    | allow hpc | refuse hpc | insertFull hpc | exchangeQueued hpc | enqueueStopped hpc
    | postRefused hpc | pushFull hpc =>
      exact hsame (.refl s)
        (by simp [Call.holdsTimerMessage, hreq, hpc, HandlerRequest.admitted])
  · have hnone : c'.holdsTimerMessage = c.holdsTimerMessage := by
      rw [holdsTimerMessage_of_ne hreq, holdsTimerMessage_of_ne (hm.request ▸ hreq)]
    have hflight := hm.inFlight (m := .timerFire) fun hmessage =>
      hreq (message_eq_timerFire.mp hmessage)
    cases hm with
    | exchange hpc | unqueue hpc =>
      simp only [Call.Fits, hpc] at hfits
      exact absurd hfits hreq
    | insert => exact hsame (sameSignals_enterDelayed ..) hnone
    | remove => exact hsame (sameSignals_eraseDelayed ..) hnone
    | rearm => exact hsame (sameSignals_startTimer ..) hnone
    | _ => exact hrest hflight rfl hnone

theorem admitted_ne_settle (request : HandlerRequest) (waited : Bool) :
    request.admitted ≠ .settle waited := by
  unfold HandlerRequest.admitted
  cases request with
  | postAsyncTask | removeAsyncTask =>
    dsimp only
    split <;> simp
  | postSyncTask | onTimerExpired => simp

/-- A synchronous call that stands here has its slot, and nobody else knows of it. -/
def preparing : CallPc → Bool
  | .allocate | .enqueue | .post | .push | .freeSlot _ => true
  | _ => false

theorem hold_claimed {slot : Nat} : c.hold = some (slot, .claimed) ↔
    c.context.slot = slot ∧ (∃ timeoutMs, c.request = .postSyncTask timeoutMs) ∧
      preparing c.pc = true := by
  obtain ⟨request, task, pc, context⟩ := c
  cases request with
  | postSyncTask timeoutMs =>
    cases pc with
    | settle waited => cases waited <;> simp [Call.hold, preparing]; split <;> simp
    | signal | await | leaving | returned => simp [Call.hold, preparing]; try split <;> simp
    | _ => simp [Call.hold, preparing]
  | _ => simp [Call.hold]

theorem CallMove.tidy (hm : CallMove config i s c s₁ c') (hc : s.holder i = c.hold)
    (hfits : c.Fits config) (h : SlotPool.Valid s.holder s.waiterInUse s.waiterSems)
    (htidy : c.Tidy) : c'.Tidy := by
  have hgoto : ∀ pc, c' = c.goto pc →
      (c.context.abandoned = true → ∃ outcome, pc = .leaving outcome ∨ pc = .returned outcome) →
      (preparing pc = true → (∃ timeoutMs, c.request = .postSyncTask timeoutMs) →
        preparing c.pc = true) →
      (pc = .settle true → c.context.done = true) → c'.Tidy := by
    rintro pc rfl hleft hprep hwoken
    refine ⟨hleft, fun slot hslot => htidy.2.1 slot ?_, hwoken⟩
    obtain ⟨hslot, hreq, hpc⟩ := hold_claimed.mp hslot
    exact hold_claimed.mpr ⟨hslot, hreq, hprep hpc hreq⟩
  have hcaller : (∀ outcome, c.pc ≠ .leaving outcome ∧ c.pc ≠ .returned outcome) →
      c.context.abandoned = true → False := by
    intro hpc habandoned
    obtain ⟨outcome, hleft⟩ := htidy.1 habandoned
    exact hleft.elim (hpc outcome).1 (hpc outcome).2
  -- what is to be shown is that nobody has given up, claimed a slot or been woken but in these
  -- moves
  cases hm with
  | acquire hpc =>
    refine ⟨fun habandoned => ?_, fun _ _ => rfl, fun hsettle => ?_⟩
    · cases habandoned
    · cases hsettle
  | abandon hpc hdone =>
    refine ⟨fun _ => ⟨_, .inl rfl⟩, fun slot hslot => hdone, fun hsettle => ?_⟩
    cases hsettle
  | leave hpc =>
    refine hgoto _ rfl (fun _ => ⟨_, .inr rfl⟩) (fun hprep => ?_) fun hsettle => ?_
    · cases hprep
    · cases hsettle
  | wake hpc hsem =>
    refine hgoto _ rfl (fun ha => (hcaller (by simp [hpc]) ha).elim) (fun hprep => ?_) fun _ => ?_
    · cases hprep
    · simp only [Call.Fits, hpc] at hfits
      obtain ⟨timeoutMs, hreq⟩ := hfits
      have hhold : c.hold = some
        (c.context.slot, if c.context.done then .signalled else .sent) := by
        simp [Call.hold, hreq, hpc]
      -- a permit of the slot is the signal of `Complete`, which comes with the result
      by_contra hdone
      have hown := (h.own_signal (hc.trans hhold) hsem).1
      rw [if_neg hdone] at hown
      cases hown
  | allow hpc =>
    refine hgoto _ rfl (fun ha => (hcaller (by simp [hpc]) ha).elim) ?_
      fun hsettle => (admitted_ne_settle _ _ hsettle).elim
    rintro hprep ⟨timeoutMs, hreq⟩
    rw [hreq] at hprep
    cases hprep
  | allocate hpc =>
    refine hgoto _ rfl (fun ha => (hcaller (by simp [hpc]) ha).elim) (fun _ _ => by rw [hpc]; rfl)
      fun hsettle => ?_
    cases hsettle
  | enqueue hpc =>
    refine hgoto _ rfl (fun ha => (hcaller (by simp [hpc]) ha).elim) (fun _ _ => by rw [hpc]; rfl)
      fun hsettle => ?_
    split at hsettle <;> cases hsettle
  | starve hpc | enqueueStopped hpc | post hpc | postRefused hpc | pushFull hpc =>
    refine hgoto _ rfl (fun ha => (hcaller (by simp [hpc]) ha).elim) (fun _ _ => by rw [hpc]; rfl)
      fun hsettle => ?_
    cases hreq : c.request <;> simp [hreq] at hsettle
  | signal hpc =>
    refine hgoto _ rfl (fun ha => (hcaller (by simp [hpc]) ha).elim) ?_ fun hsettle => ?_
    · rintro hprep ⟨timeoutMs, hreq⟩
      rw [hreq] at hprep
      cases hprep
    · cases hreq : c.request <;> simp [hreq] at hsettle
  | exchange hpc =>
    have hreq : c.request = .onTimerExpired := by simpa [Call.Fits, hpc] using hfits
    refine hgoto _ rfl (fun ha => (hcaller (by simp [hpc]) ha).elim) ?_ fun hsettle => ?_
    · rintro - ⟨timeoutMs, hsync⟩
      rw [hreq] at hsync
      cases hsync
    · cases hsettle
  | _ hpc =>
    refine hgoto _ rfl (fun ha => (hcaller (by simp [hpc]) ha).elim) (fun hprep => ?_)
      fun hsettle => ?_
    · cases hprep
    · cases hsettle

end LosEventHandler

end CallManagerMini

