import CallManagerMini.HandlerReachable

/-! # The signals of `Stop` in every run

The moves of `Stop` and of the tasks around the handler keep the invariant as the moves of the
calls and of the loop do, so that it holds in every state of every run (`reachable_inv`).
`Stop` leaves a wait behind it only when the signal is there it waits for (`Inv.proceed`), and
once all of them are there, nothing is on its way any more (`Inv.nobody`, `Inv.quiet`).
-/

namespace CallManagerMini.LosEventHandler

open SlotPool (Phase)

variable {config : Config} {s s' s₁ : LosEventHandler} {i : Nat} {c c' : Call}

/-! ## `Stop` waits -/

/-- Inside `Stop` the handler is stopping, and its stage is that of `Stop`. -/
theorem Inv.stage_eq (h : s.Inv config) (hstop : s.stop ≠ .idle) : s.stage = s.stop.stage := by
  rw [stage, h.stopping hstop]
  rfl

theorem Inv.stop_idle (h : s.Inv config) (hstate : s.state ≠ .stopping) : s.stop = .idle := by
  by_contra hstop
  exact hstate (h.stopping hstop)

/-- Where nothing is released yet, `Stop` comes to a place whose waits are over. -/
theorem Inv.proceed (h : s.Inv config) (hs : s.stage ≤ 4) {state : HandlerState} {pc : StopPc}
    {task : TelOsTaskId} (hstate : state ≠ .uninit) (hstopping : pc ≠ .idle → state = .stopping)
    (hdriven : pc = .checkOffLoop ∨ pc = .awaitDispatch → config.poster = true)
    (hloop : 1 ≤ pc.stage → config.poster = false → s.loop = .idle)
    (hcalls : 2 ≤ pc.stage → ∀ c ∈ s.calls, c.admitted = false)
    (hmessage : 3 ≤ pc.stage → s.timerMessageQueued = false)
    (hwaiters : 4 ≤ pc.stage → true ∉ s.waiterInUse) :
    Inv config { s with state := state, stop := pc, stopTask := task } := by
  have hstage : stage { s with state := state, stop := pc, stopTask := task } = pc.stage :=
    if_neg hstate
  exact
    { h with
      stopping := hstopping
      driven := hdriven
      noLoop := fun hpc => hloop (hstage ▸ hpc)
      noCalls := fun hpc => hcalls (hstage ▸ hpc)
      noTimerMessage := fun hpc => hmessage (hstage ▸ hpc)
      noWaiters := fun hpc => hwaiters (hstage ▸ hpc)
      timer := fun _ => h.timer hs
      waiters := fun _ => h.waiters (by omega)
      queueSem := fun _ => h.queueSem (by omega)
      lock := fun _ => h.lock (by omega)
      timerMessage := fun _ => h.timerMessage (by omega) }

/-- The places of `Stop` that no wait stands before. -/
theorem Inv.restart (h : s.Inv config) (hs : s.stage ≤ 4) {state : HandlerState} {pc : StopPc}
    {task : TelOsTaskId} (hpc : pc.stage = 0) (hstate : state ≠ .uninit)
    (hstopping : pc ≠ .idle → state = .stopping)
    (hdriven : pc = .checkOffLoop ∨ pc = .awaitDispatch → config.poster = true) :
    Inv config { s with state := state, stop := pc, stopTask := task } := by
  refine h.proceed hs hstate hstopping hdriven ?_ ?_ ?_ ?_ <;> rw [hpc] <;> omega

/-- What the timer and the loop's semaphore count does not matter, nor the delayed tasks. -/
theorem Inv.aside (h : s.Inv config) (t : Option OsTimer) (n : Option Nat)
    (entries : List DelayedTask) (log : List HandlerEvent) (ht : t.isSome = s.timer.isSome)
    (hn : n.isSome = s.queueSem.isSome) :
    Inv config { s with timer := t, queueSem := n, delayed := entries, log := log } :=
  { h with
    timer := fun hs => ht.trans (h.timer hs)
    queueSem := fun hs hposter => hn.trans (h.queueSem hs hposter) }

/-! ## `Stop` releases the objects -/

/-- When all waits are over, no call holds a slot. -/
theorem Inv.nobody (h : s.Inv config) (hs : 4 ≤ s.stage) : s.holder = fun _ => none := by
  funext i
  -- a slot that is held is marked as in use
  cases hi : s.holder i with
  | none => rfl
  | some held =>
    obtain ⟨k, p⟩ := held
    exact absurd (List.mem_of_getElem? (h.pool.held i k p hi)) (h.noWaiters hs)

/-- When all waits are over, neither the timer message nor that of a synchronous call is on its
way. -/
theorem Inv.quiet (h : s.Inv config) (hs : 4 ≤ s.stage) :
    s.inFlight .timerFire = 0 ∧ ∀ i, s.inFlight (.syncCall i) = 0 := by
  constructor
  · have hqueued := h.queued
    rw [h.noTimerMessage (by omega)] at hqueued
    simp only [Bool.toNat_false] at hqueued
    omega
  · intro i
    rw [h.sent i, h.nobody hs]
    rfl

/-- Where all waits are over, an object may go that nobody at a later stage counts on. -/
theorem Inv.retire (h : s.Inv config) (hs : 4 ≤ s.stage) {state : HandlerState} {pc : StopPc}
    {lock : Option (Option Agent)} {t : Option OsTimer} {n : Option Nat} {sems : List Nat}
    {used : List Bool} {ring : RingBuffer LosEventMessage} {message : Bool}
    {queued : Bool} {log : List HandlerEvent}
    (hstopping : pc ≠ .idle → state = .stopping)
    (hdriven : pc = .checkOffLoop ∨ pc = .awaitDispatch → config.poster = true)
    (hring : ring = s.ring ∨ ring.toList = [])
    (hpool : SlotPool.Valid (fun _ : Nat => none) used sems) (hused : true ∉ used)
    (hqueued : queued = false) (k : Nat) (hstage : stage { s with state := state, stop := pc } = k)
    (htimer : k ≤ 4 → t.isSome = true) (hwaiters : k ≤ 5 → used.length = config.maxSyncWaiters)
    (hqueueSem : k ≤ 6 → config.poster = false → n.isSome = true)
    (hlock : k ≤ 7 → lock.isSome = true) (hmessage : k ≤ 8 → message = true) :
    Inv config { s with
      state := state, stop := pc, lock := lock, timer := t, queueSem := n, waiterSems := sems
      waiterInUse := used, ring := ring, timerMessage := message
      timerMessageQueued := queued, log := log } := by
  obtain ⟨hquiet, hquiet'⟩ := h.quiet hs
  have hflight : ∀ m, s.inFlight m = 0 →
      ring.toList.count m + s.posted.count m + (if s.loop.hand = some m then 1 else 0) = 0 := by
    intro m hm
    rw [LosEventHandler.inFlight] at hm
    -- the ring is the old one, or it was cleared with its queue
    rcases hring with rfl | hempty
    · exact hm
    · rw [hempty, List.count_nil]
      omega
  have hnobody := h.nobody hs
  exact
    { h with
      queued := by
        have hbefore := h.queued
        rw [hquiet, h.noTimerMessage (by omega)] at hbefore
        change _ + (ring.toList.count _ + s.posted.count _ + _) = _
        rw [hflight _ hquiet, hqueued]
        exact hbefore
      pool := hnobody ▸ hpool
      sent := by
        intro i
        change ring.toList.count _ + s.posted.count _ + _ = SlotPool.sentCount (s.holder i)
        rw [hflight _ (hquiet' i), hnobody]
        rfl
      stopping := hstopping
      driven := hdriven
      noLoop := fun _ => h.noLoop (by omega)
      noCalls := fun _ => h.noCalls (by omega)
      noTimerMessage := fun _ => hqueued
      noWaiters := fun _ => hused
      timer := fun hs' => htimer (hstage ▸ hs')
      waiters := fun hs' => hwaiters (hstage ▸ hs')
      queueSem := fun hs' => hqueueSem (hstage ▸ hs')
      lock := fun hs' => hlock (hstage ▸ hs')
      timerMessage := fun hs' => hmessage (hstage ▸ hs') }

/-! ## The moves of `Stop` -/

section Stop
variable {pc : StopPc}

/-- Where `Stop` is at work, the handler is stopping. -/
theorem Inv.at_stop (h : s.Inv config) (hpc : s.stop = pc) (hne : pc ≠ .idle) :
    s.state = .stopping ∧ s.state ≠ .uninit ∧ s.stage = pc.stage := by
  subst hpc
  have hstate := h.stopping hne
  exact ⟨hstate, by simp [hstate], h.stage_eq hne⟩

/-! ### Up to the first wait -/

theorem Inv.stop_checkOnLoop (h : s.Inv config) (hpc : s.stop = .checkOnLoop)
    (hnext : pc = .resume ∨ pc = .stopTimer) : Inv config { s with stop := pc } := by
  obtain ⟨hstate, hinit, hstage⟩ := h.at_stop hpc (by simp)
  refine h.restart (by simp [hstage, StopPc.stage]) ?_ hinit (fun _ => hstate) ?_
  · rcases hnext with rfl | rfl <;> rfl
  · rcases hnext with rfl | rfl <;> simp

theorem Inv.stop_resume (h : s.Inv config) (hpc : s.stop = .resume) :
    Inv config { s with state := .running, stop := .idle } := by
  obtain ⟨-, -, hstage⟩ := h.at_stop hpc (by simp)
  exact h.restart (by simp [hstage, StopPc.stage]) rfl (by simp) (by simp) (by simp)

theorem Inv.stop_stopTimer (h : s.Inv config) (hpc : s.stop = .stopTimer) :
    Inv config { s.stopTimer with stop := .dropDelayed } := by
  obtain ⟨hstate, hinit, -⟩ := h.at_stop hpc (by simp)
  have haside := h.aside s.stopTimer.timer s.queueSem s.delayed s.log Option.isSome_map rfl
  exact haside.restart (by simp [stage, hstate, hpc, StopPc.stage]) rfl hinit
    (fun _ => hstate) (by simp)

theorem Inv.stop_dropDelayed (h : s.Inv config) (hpc : s.stop = .dropDelayed) :
    Inv config { s with
      delayed := []
      log := s.log ++ s.delayed.map fun entry => .dropped entry.call
      stop := if config.poster then .checkOffLoop else .wakeLoop } := by
  obtain ⟨hstate, hinit, -⟩ := h.at_stop hpc (by simp)
  have haside := h.aside s.timer s.queueSem []
    (s.log ++ s.delayed.map fun entry => .dropped entry.call) rfl rfl
  refine haside.restart (by simp [stage, hstate, hpc, StopPc.stage]) ?_ hinit (fun _ => hstate) ?_
  · split <;> rfl
  · split
    next hposter => exact fun _ => hposter
    · simp

theorem Inv.stop_wakeLoop (h : s.Inv config) (hpc : s.stop = .wakeLoop) :
    Inv config { s.postQueueSem config with stop := .awaitLoop } := by
  obtain ⟨hstate, hinit, -⟩ := h.at_stop hpc (by simp)
  have haside := h.aside s.timer (s.postQueueSem config).queueSem s.delayed s.log rfl
    Option.isSome_map
  exact haside.restart (by simp [stage, hstate, hpc, StopPc.stage]) rfl hinit
    (fun _ => hstate) (by simp)

theorem Inv.stop_checkOffLoop (h : s.Inv config) (hpc : s.stop = .checkOffLoop) :
    Inv config { s with stop := .awaitDispatch } := by
  obtain ⟨hstate, hinit, hstage⟩ := h.at_stop hpc (by simp)
  exact h.restart (by simp [hstage, StopPc.stage]) rfl hinit (fun _ => hstate)
    fun _ => h.driven (by simp [hpc])

/-! ### The waits -/

theorem Inv.stop_loopEnded (h : s.Inv config) (hpc : s.stop = .awaitLoop)
    (hended : s.loopRunning = false) : Inv config { s with stop := .awaitCalls } := by
  obtain ⟨hstate, hinit, hstage⟩ := h.at_stop hpc (by simp)
  exact h.proceed (by simp [hstage, StopPc.stage]) hinit (fun _ => hstate) (by simp)
    (fun _ hposter => h.ended hposter hended) (by simp [StopPc.stage]) (by simp [StopPc.stage])
    (by simp [StopPc.stage])

/-- Whether the wait for `Dispatch` is over or given up, or not for the caller. -/
theorem Inv.stop_dispatchLeft (h : s.Inv config)
    (hpc : s.stop = .checkOffLoop ∨ s.stop = .awaitDispatch) :
    Inv config { s with stop := .awaitCalls } := by
  have hposter := h.driven hpc
  obtain ⟨hstate, hinit, hstage⟩ : s.state = .stopping ∧ s.state ≠ .uninit ∧ s.stage = 0 := by
    rcases hpc with hpc | hpc <;> exact h.at_stop hpc (by simp)
  exact h.proceed (by omega) hinit (fun _ => hstate) (by simp) (by simp [hposter])
    (by simp [StopPc.stage]) (by simp [StopPc.stage]) (by simp [StopPc.stage])

theorem Inv.stop_callsEnded (h : s.Inv config) (hpc : s.stop = .awaitCalls)
    (hended : s.activeCalls = 0) : Inv config { s with stop := .awaitTimerMessage } := by
  obtain ⟨hstate, hinit, hstage⟩ := h.at_stop hpc (by simp)
  -- every admitted call is counted in `activeCalls_`
  have hnone : ∀ c ∈ s.calls, c.admitted = false := by
    intro c hc
    have hactive := List.countP_eq_zero.mp (h.active.symm.trans hended) c hc
    by_contra hadmitted
    exact hactive (c.active_of_admitted (Bool.eq_true_of_not_eq_false hadmitted))
  exact h.proceed (by simp [hstage, StopPc.stage]) hinit (fun _ => hstate) (by simp)
    (fun _ => h.noLoop (by simp [hstage, StopPc.stage])) (fun _ => hnone)
    (by simp [StopPc.stage]) (by simp [StopPc.stage])

theorem Inv.stop_timerMessageBack (h : s.Inv config) (hpc : s.stop = .awaitTimerMessage)
    (hback : s.timerMessageQueued = false) : Inv config { s with stop := .awaitWaiters } := by
  obtain ⟨hstate, hinit, hstage⟩ := h.at_stop hpc (by simp)
  exact h.proceed (by simp [hstage, StopPc.stage]) hinit (fun _ => hstate) (by simp)
    (fun _ => h.noLoop (by simp [hstage, StopPc.stage]))
    (fun _ => h.noCalls (by simp [hstage, StopPc.stage])) (fun _ => hback)
    (by simp [StopPc.stage])

theorem Inv.stop_waitersEnded (h : s.Inv config) (hpc : s.stop = .awaitWaiters)
    (hended : true ∉ s.waiterInUse) : Inv config { s with stop := .releaseTimer } := by
  obtain ⟨hstate, hinit, hstage⟩ := h.at_stop hpc (by simp)
  exact h.proceed (by simp [hstage, StopPc.stage]) hinit (fun _ => hstate) (by simp)
    (fun _ => h.noLoop (by simp [hstage, StopPc.stage]))
    (fun _ => h.noCalls (by simp [hstage, StopPc.stage]))
    (fun _ => h.noTimerMessage (by simp [hstage, StopPc.stage])) (fun _ => hended)

theorem Inv.stop_waitAgain (h : s.Inv config)
    (hpc : s.stop = .awaitTimerMessage ∨ s.stop = .awaitWaiters) :
    Inv config { s with stop := .awaitCalls } := by
  have hstage : 2 ≤ s.stage ∧ s.stage ≤ 4 := by
    rcases hpc with hpc | hpc <;> simp [(h.at_stop hpc (by simp)).2.2, StopPc.stage]
  have hstate : s.state = .stopping := by
    rcases hpc with hpc | hpc <;> exact (h.at_stop hpc (by simp)).1
  exact h.proceed hstage.2 (by simp [hstate]) (fun _ => hstate) (by simp)
    (fun _ => h.noLoop (by omega)) (by simp [StopPc.stage]) (by simp [StopPc.stage])
    (by simp [StopPc.stage])

/-- A wait that is given up: the objects stay, and the handler stays stopping. -/
theorem Inv.stop_giveUp (h : s.Inv config) (hpc : s.stop = .awaitLoop ∨ s.stop = .awaitCalls ∨
    s.stop = .awaitTimerMessage ∨ s.stop = .awaitWaiters) :
    Inv config { s with stop := .idle } := by
  have hstage : s.stage ≤ 4 := by
    rcases hpc with hpc | hpc | hpc | hpc <;>
      simp [(h.at_stop hpc (by simp)).2.2, StopPc.stage]
  have hstate : s.state = .stopping := by
    rcases hpc with hpc | hpc | hpc | hpc <;> exact (h.at_stop hpc (by simp)).1
  exact h.restart hstage rfl (by simp [hstate]) (by simp) (by simp)

/-! ### The releases -/

theorem Inv.stop_releaseTimer (h : s.Inv config) (hpc : s.stop = .releaseTimer) :
    Inv config { s with timer := none, stop := .releaseWaiters } := by
  obtain ⟨hstate, -, hstage⟩ := h.at_stop hpc (by simp)
  have hs : s.stage = 4 := hstage
  exact h.retire (by omega) (fun _ => hstate) (by simp) (.inl rfl)
    (h.nobody (by omega) ▸ h.pool) (h.noWaiters (by omega)) (h.noTimerMessage (by omega)) 5
    (by simp [stage, hstate, StopPc.stage]) (by simp) (fun _ => h.waiters (by omega))
    (fun _ => h.queueSem (by omega)) (fun _ => h.lock (by omega))
    (fun _ => h.timerMessage (by omega))

theorem Inv.stop_releaseWaiters (h : s.Inv config) (hpc : s.stop = .releaseWaiters) :
    Inv config { s with waiterSems := [], waiterInUse := [], stop := .releaseQueue } := by
  obtain ⟨hstate, -, hstage⟩ := h.at_stop hpc (by simp)
  have hs : s.stage = 5 := hstage
  exact h.retire (by omega) (fun _ => hstate) (by simp) (.inl rfl)
    (.fresh (fun _ => rfl) 0) (by simp) (h.noTimerMessage (by omega)) 6
    (by simp [stage, hstate, StopPc.stage]) (by simp) (by simp)
    (fun _ => h.queueSem (by omega)) (fun _ => h.lock (by omega))
    (fun _ => h.timerMessage (by omega))

theorem Inv.stop_releaseQueue (h : s.Inv config) (hpc : s.stop = .releaseQueue) :
    Inv config { s with queueSem := none, ring := .empty 0, stop := .releaseLock } := by
  obtain ⟨hstate, -, hstage⟩ := h.at_stop hpc (by simp)
  have hs : s.stage = 6 := hstage
  exact h.retire (by omega) (fun _ => hstate) (by simp) (.inr (RingBuffer.toList_empty 0))
    (h.nobody (by omega) ▸ h.pool) (h.noWaiters (by omega)) (h.noTimerMessage (by omega)) 7
    (by simp [stage, hstate, StopPc.stage]) (by simp) (by simp) (by simp)
    (fun _ => h.lock (by omega)) (fun _ => h.timerMessage (by omega))

theorem Inv.stop_releaseLock (h : s.Inv config) (hpc : s.stop = .releaseLock) :
    Inv config { s with lock := none, stop := .releaseMessage } := by
  obtain ⟨hstate, -, hstage⟩ := h.at_stop hpc (by simp)
  have hs : s.stage = 7 := hstage
  exact h.retire (by omega) (fun _ => hstate) (by simp) (.inl rfl)
    (h.nobody (by omega) ▸ h.pool) (h.noWaiters (by omega)) (h.noTimerMessage (by omega)) 8
    (by simp [stage, hstate, StopPc.stage]) (by simp) (by simp) (by simp) (by simp)
    (fun _ => h.timerMessage (by omega))

theorem Inv.stop_releaseMessage (h : s.Inv config) (hpc : s.stop = .releaseMessage) :
    Inv config { s with timerMessage := false, stop := .clearQueued } := by
  obtain ⟨hstate, -, hstage⟩ := h.at_stop hpc (by simp)
  have hs : s.stage = 8 := hstage
  exact h.retire (by omega) (fun _ => hstate) (by simp) (.inl rfl)
    (h.nobody (by omega) ▸ h.pool) (h.noWaiters (by omega)) (h.noTimerMessage (by omega)) 9
    (by simp [stage, hstate, StopPc.stage]) (by simp) (by simp) (by simp) (by simp) (by simp)

theorem Inv.stop_clearQueued (h : s.Inv config) (hpc : s.stop = .clearQueued) :
    Inv config { s with timerMessageQueued := false, stop := .finish } := by
  obtain ⟨hstate, -, hstage⟩ := h.at_stop hpc (by simp)
  have hs : s.stage = 9 := hstage
  exact h.retire (by omega) (fun _ => hstate) (by simp) (.inl rfl)
    (h.nobody (by omega) ▸ h.pool) (h.noWaiters (by omega)) rfl 9
    (by simp [stage, hstate, StopPc.stage]) (by simp) (by simp) (by simp) (by simp) (by simp)

theorem Inv.stop_finish (h : s.Inv config) (hpc : s.stop = .finish) :
    Inv config ({ s with state := .uninit, stop := .idle }.note .stopped) := by
  obtain ⟨-, -, hstage⟩ := h.at_stop hpc (by simp)
  have hs : s.stage = 9 := hstage
  exact h.retire (by omega) (by simp) (by simp) (.inl rfl)
    (h.nobody (by omega) ▸ h.pool) (h.noWaiters (by omega)) (h.noTimerMessage (by omega)) 9
    (by simp [stage]) (by simp) (by simp) (by simp) (by simp) (by simp)

/-- **A move of `Stop` keeps the invariant.** -/
theorem Inv.stop {timeUp : Bool} (h : s.Inv config) (hm : StopMove config s timeUp s') :
    Inv config s' := by
  cases hm with
  | onLoop hpc => exact h.stop_checkOnLoop hpc (.inl rfl)
  | offLoop hpc => exact h.stop_checkOnLoop hpc (.inr rfl)
  | resume hpc => exact h.stop_resume hpc
  | stopTimer hpc => exact h.stop_stopTimer hpc
  | dropDelayed hpc => exact h.stop_dropDelayed hpc
  | wakeLoop hpc => exact h.stop_wakeLoop hpc
  | checkedOffLoop hpc => exact h.stop_checkOffLoop hpc
  | poll => exact h
  | loopEnded hpc hended => exact h.stop_loopEnded hpc hended
  | checkedOnLoop hpc => exact h.stop_dispatchLeft (.inl hpc)
  | dispatchEnded hpc | dispatchTimedOut hpc => exact h.stop_dispatchLeft (.inr hpc)
  | callsEnded hpc hended => exact h.stop_callsEnded hpc hended
  | timerMessageBack hpc hback => exact h.stop_timerMessageBack hpc hback
  | waitersEnded hpc hended => exact h.stop_waitersEnded hpc hended
  | waitAgain hpc => exact h.stop_waitAgain hpc
  | giveUp hpc => exact h.stop_giveUp hpc
  | releaseTimer hpc => exact h.stop_releaseTimer hpc
  | releaseWaiters hpc => exact h.stop_releaseWaiters hpc
  | releaseQueue hpc => exact h.stop_releaseQueue hpc
  | releaseLock hpc => exact h.stop_releaseLock hpc
  | releaseMessage hpc => exact h.stop_releaseMessage hpc
  | clearQueued hpc => exact h.stop_clearQueued hpc
  | finish hpc => exact h.stop_finish hpc

end Stop

/-! ## The tasks around the handler -/

/-- A call that is not counted yet changes nothing. -/
theorem Inv.enter (h : s.Inv config) (request : HandlerRequest) (task : TelOsTaskId)
    {t : Option OsTimer} (ht : t.isSome = s.timer.isSome) :
    Inv config
      { s with timer := t, calls := s.calls ++ [{ request := request, task := task }] } := by
  have hall : ∀ {P : Call → Prop}, (∀ c ∈ s.calls, P c) → P { request := request, task := task } →
      ∀ c ∈ s.calls ++ [{ request := request, task := task }], P c := by
    intro P hP hnew c hc
    rcases List.mem_append.mp hc with hc | hc
    · exact hP c hc
    · rw [List.mem_singleton.mp hc]
      exact hnew
  -- a new call stands before everything that a signal counts
  have hhold : Call.hold { request := request, task := task } = none := by cases request <;> rfl
  have hholder :
      holder { s with timer := t, calls := s.calls ++ [{ request := request, task := task }] } =
        s.holder := by
    funext i
    rw [holder, holder]
    dsimp only
    rcases Nat.lt_trichotomy i s.calls.length with hi | rfl | hi
    · rw [List.getElem?_append_left hi]
    · rw [List.getElem?_concat_length, List.getElem?_eq_none (Nat.le_refl _)]
      exact hhold
    · rw [List.getElem?_eq_none (by rw [List.length_append, List.length_singleton]; exact hi),
        List.getElem?_eq_none hi.le]
  exact
    { h with
      fits := hall h.fits trivial
      tidy := hall h.tidy ⟨by simp, by simp [hhold], by simp⟩
      active := by
        rw [List.countP_append]
        exact h.active
      queued := by
        have hholds : Call.holdsTimerMessage { request := request, task := task } = false := by
          cases request <;> rfl
        have hqueued := h.queued
        rw [List.countP_append, List.countP_singleton, hholds]
        exact hqueued
      pool := hholder ▸ h.pool
      sent := hholder ▸ h.sent
      noCalls := fun hs => hall (h.noCalls hs) rfl
      timer := fun hs => ht.trans (h.timer hs) }

/-- A message that is taken to `Dispatch` stays on its way. -/
theorem inFlight_receive {k : Nat} {message : LosEventMessage} (hidle : s.loop = .idle)
    (hk : s.posted[k]? = some message) (m : LosEventMessage) :
    inFlight { s with posted := s.posted.eraseIdx k, loop := .dispatch message } m =
      s.inFlight m := by
  obtain ⟨hlt, hmessage⟩ := List.getElem?_eq_some_iff.mp hk
  have hcount := (List.getElem_cons_eraseIdx_perm hlt).count_eq m
  rw [hmessage, List.count_cons] at hcount
  simp only [LosEventHandler.inFlight, hidle, LoopPc.hand, reduceCtorEq, if_false,
    Option.some.injEq]
  simp only [beq_iff_eq] at hcount
  omega

/-- The owner of an externally driven handler takes a message. -/
theorem Inv.receive {k : Nat} {message : LosEventMessage} (h : s.Inv config)
    (hposter : config.poster = true) (hidle : s.loop = .idle) (hk : s.posted[k]? = some message) :
    Inv config { s with posted := s.posted.eraseIdx k, loop := .dispatch message } :=
  { h with
    dispatching := by
      have hdispatching := h.dispatching
      rw [hidle] at hdispatching
      exact hdispatching
    queued := (congrArg _ (inFlight_receive hidle hk _)).trans h.queued
    sent := fun i => (inFlight_receive hidle hk _).trans (h.sent i)
    ended := by simp [hposter]
    external := fun _ => rfl
    noLoop := by simp [hposter] }

/-- **`Init` starts from nothing**: no message of an earlier life is on its way. -/
theorem Inv.initialized (h : s.Inv config) (hs : s.state = .uninit) :
    Inv config (s.initialized config) := by
  have hstage : s.stage = 9 := if_pos hs
  have hidle : s.stop = .idle := h.stop_idle (by simp [hs])
  have hnobody := h.nobody (by omega)
  have hqueued := h.queued
  rw [h.noTimerMessage (by omega)] at hqueued
  have hpool : SlotPool.Valid s.holder (List.replicate config.maxSyncWaiters false)
      (List.replicate config.maxSyncWaiters 0) := .fresh (fun i => by rw [hnobody]) _
  have hstage' : (s.initialized config).stage = 0 := by
    cases hposter : config.poster <;> simp [LosEventHandler.initialized, hposter, stage, note,
      StopPc.stage, hidle]
  have hlate : ∀ {k : Nat} {P : Prop}, 1 ≤ k → k ≤ (s.initialized config).stage → P := by
    intro k P hk hle
    rw [hstage'] at hle
    omega
  cases hposter : config.poster with
  | true =>
    have heq : s.initialized config = { s with
        timerMessage := true, lock := some none, timer := some {}
        waiterSems := List.replicate config.maxSyncWaiters 0
        waiterInUse := List.replicate config.maxSyncWaiters false
        state := .running, log := s.log ++ [.started] } := by
      simp [LosEventHandler.initialized, hposter, note]
    rw [heq] at hlate ⊢
    exact
      { h with
        pool := hpool
        stopping := fun hstop => (hstop hidle).elim
        noLoop := hlate (by omega)
        noCalls := hlate (by omega)
        noTimerMessage := hlate (by omega)
        noWaiters := hlate (by omega)
        timer := fun _ => rfl
        waiters := fun _ => List.length_replicate
        queueSem := by simp [hposter]
        lock := fun _ => rfl
        timerMessage := fun _ => rfl }
  | false =>
    have heq : s.initialized config = { s with
        timerMessage := true, lock := some none, timer := some {}
        waiterSems := List.replicate config.maxSyncWaiters 0
        waiterInUse := List.replicate config.maxSyncWaiters false
        state := .running, ring := .empty (config.queueSize + 1), queueSem := some 0
        loopRunning := true, loop := .bind, log := s.log ++ [.started] } := by
      simp [LosEventHandler.initialized, hposter, note]
    rw [heq] at hlate ⊢
    have hnoLoop := h.noLoop (by omega) hposter
    have hflight : ∀ m, s.inFlight m = 0 → inFlight { s with
        timerMessage := true, lock := some none, timer := some {}
        waiterSems := List.replicate config.maxSyncWaiters 0
        waiterInUse := List.replicate config.maxSyncWaiters false
        state := .running, ring := .empty (config.queueSize + 1), queueSem := some 0
        loopRunning := true, loop := .bind, log := s.log ++ [.started] } m = 0 := by
      intro m hm
      rw [LosEventHandler.inFlight] at hm ⊢
      simp only [RingBuffer.toList_empty, List.count_nil, LoopPc.hand, reduceCtorEq, if_false]
      omega
    obtain ⟨hquiet, hquiet'⟩ := h.quiet (by omega)
    exact
      { h with
        dispatching := by
          have hdispatching := h.dispatching
          rw [hnoLoop] at hdispatching
          exact hdispatching
        queued := by
          rw [hflight _ hquiet, h.noTimerMessage (by omega)]
          rw [hquiet] at hqueued
          exact hqueued
        pool := hpool
        sent := by
          intro i
          rw [hflight _ (hquiet' i)]
          have hnone := congrFun hnobody i
          exact (congrArg SlotPool.sentCount hnone).symm
        ended := by simp
        external := by simp [hposter]
        stopping := fun hstop => (hstop hidle).elim
        noLoop := hlate (by omega)
        noCalls := hlate (by omega)
        noTimerMessage := hlate (by omega)
        noWaiters := hlate (by omega)
        timer := fun _ => rfl
        waiters := fun _ => List.length_replicate
        queueSem := fun _ _ => rfl
        lock := fun _ => rfl
        timerMessage := fun _ => rfl }

/-! ## Every run -/

/-- **A move of the system keeps the invariant.** -/
theorem Inv.move {a : Act} (h : s.Inv config) (hm : Move config s a s') : Inv config s' := by
  cases hm with
  | init hs => exact h.initialized hs
  | invoke => exact h.enter _ _ rfl
  | expire htimer => exact h.enter _ _ (by rw [htimer]; rfl)
  | call hi hm => exact h.call hi hm
  | loop _ hm => exact h.loop hm
  | bindLoopTask => exact { h with bound := .inr rfl }
  | receive hposter hidle hk => exact h.receive hposter hidle hk
  | callStop hs =>
    have hidle : s.stop = .idle := h.stop_idle (by simp [hs])
    have hstage : s.stage = 0 := by simp [stage, hs, hidle, StopPc.stage]
    refine h.restart (by omega) ?_ (by simp) (fun _ => rfl) ?_
    · split <;> rfl
    · split <;> simp
  | stop hm => exact h.stop hm
  | tick => exact { h with }
  | nothing => exact h

/-- **A step of the system keeps the invariant.** -/
theorem Inv.step {a : Act} (h : s.Inv config) (hstep : s.step? config a = some s') :
    Inv config s' := by
  obtain ⟨me, hlock, rfl⟩ | ⟨l, hl, hm⟩ := step_cases hstep
  · exact h.locked (by rw [hlock]; rfl)
  · exact (h.locked hl).move hm

/-- A handler that was constructed and nothing else. -/
theorem inv_constructed (config : Config) : Inv config {} where
  fits := by simp
  tidy := by simp
  active := rfl
  dispatching := rfl
  queued := rfl
  pool := .fresh (fun _ => rfl) 0
  sent _ := rfl
  ended _ _ := rfl
  external _ := rfl
  bound := .inl rfl
  stopping h := (h rfl).elim
  driven := by simp
  noLoop _ _ := rfl
  noCalls := by simp
  noTimerMessage _ := rfl
  noWaiters := by simp
  timer := by simp [stage]
  waiters := by simp [stage]
  queueSem := by simp [stage]
  lock := by simp [stage]
  timerMessage := by simp [stage]

/-- A step of the system, whoever takes it. -/
def Steps (config : Config) (s s' : LosEventHandler) : Prop := ∃ a, s.step? config a = some s'

/-- The states the handler comes to. -/
abbrev Reachable (config : Config) : LosEventHandler → Prop :=
  Runs.Reachable (· = {}) (Steps config)

/-- **The signals of `Stop` stand for those who are inside the handler, in every state of every
run.** -/
theorem reachable_inv (h : Reachable config s) : s.Inv config := by
  refine h.invariant (fun s hs => ?_) fun s s' hs hstep => ?_
  · subst hs
    exact inv_constructed config
  · obtain ⟨a, ha⟩ := hstep
    exact hs.step ha

/-! ## Stopping on the loop -/

/-- A `Stop` that was called by the task of the loop was called outside the handler, and the loop
waits for it; and only such a `Stop` is taken back. -/
structure Paused (config : Config) (s : LosEventHandler) : Prop where
  onLoop : s.stopsOnLoop config = true → s.leftToOwner config = true
  resume : s.stop = .resume → s.stopTask = config.loopTask

theorem isOnLoop_eq {task : TelOsTaskId} (h : s.isOnLoop task = true) :
    s.loopTaskId ≠ 0 ∧ s.loopTaskId = task := by
  simpa [isOnLoop] using h

theorem Inv.eq_loopTask (h : s.Inv config) {task : TelOsTaskId} (hon : s.isOnLoop task = true) :
    task = config.loopTask := by
  obtain ⟨hbound, htask⟩ := isOnLoop_eq hon
  exact htask.symm.trans (h.bound.resolve_left hbound)

theorem stopsOnLoop_iff :
    s.stopsOnLoop config = true ↔ s.stop ≠ .idle ∧ s.stopTask = config.loopTask := by
  simp [stopsOnLoop]

theorem leftToOwner_eq (hloop : s'.loop = s.loop) :
    s'.leftToOwner config = s.leftToOwner config := by
  unfold leftToOwner
  rw [hloop]

/-- Where neither the loop nor `Stop` has moved. -/
theorem Paused.frame (h : s.Paused config) (hstop : s'.stop = s.stop)
    (htask : s'.stopTask = s.stopTask) (hloop : s'.loop = s.loop) : Paused config s' where
  onLoop hon := by
    rw [stopsOnLoop_iff, hstop, htask] at hon
    exact (leftToOwner_eq hloop).trans (h.onLoop (stopsOnLoop_iff.mpr hon))
  resume hresume := htask ▸ h.resume (hstop ▸ hresume)

/-- Where `Stop` has come further, or to its end. -/
theorem Paused.further (h : s.Paused config) (hbefore : s.stop ≠ .idle)
    (htask : s'.stopTask = s.stopTask) (hloop : s'.loop = s.loop) (hresume : s'.stop ≠ .resume) :
    Paused config s' where
  onLoop hon := by
    rw [stopsOnLoop_iff, htask] at hon
    exact (leftToOwner_eq hloop).trans (h.onLoop (stopsOnLoop_iff.mpr ⟨hbefore, hon.2⟩))
  resume hres := absurd hres hresume

theorem Paused.stop {timeUp : Bool} (h : s.Paused config) (hinv : s.Inv config)
    (hm : StopMove config s timeUp s') : Paused config s' := by
  cases hm with
  | poll => exact h
  | onLoop hpc hon =>
    refine ⟨fun hon' => ?_, fun _ => hinv.eq_loopTask hon⟩
    exact h.onLoop (stopsOnLoop_iff.mpr ⟨by simp [hpc], (stopsOnLoop_iff.mp hon').2⟩)
  | giveUp hpc =>
    have hbefore : s.stop ≠ .idle := by rcases hpc with hpc | hpc | hpc | hpc <;> simp [hpc]
    exact h.further hbefore rfl rfl (by simp)
  | waitAgain hpc =>
    have hbefore : s.stop ≠ .idle := by rcases hpc with hpc | hpc <;> simp [hpc]
    exact h.further hbefore rfl rfl (by simp)
  | dropDelayed hpc =>
    refine h.further (by simp [hpc]) rfl rfl ?_
    cases hposter : config.poster <;> simp
  | _ hpc => exact h.further (by simp [hpc]) rfl rfl (by simp [note])

theorem Paused.move {a : Act} (h : s.Paused config) (hinv : s.Inv config)
    (hm : Move config s a s') : Paused config s' := by
  cases hm with
  | init hs =>
    have hstop : (s.initialized config).stop = .idle := by
      have hbefore := hinv.stop_idle (by simp [hs])
      cases hposter : config.poster <;>
        simp [LosEventHandler.initialized, hposter, note, hbefore]
    exact ⟨fun hon => ((stopsOnLoop_iff.mp hon).1 hstop).elim, by simp [hstop]⟩
  | invoke | expire | bindLoopTask | tick | nothing => exact h.frame rfl rfl rfl
  | call hi hm => exact h.frame hm.frame.stop hm.frame.stopTask hm.frame.loop
  | loop hfree hm =>
    have hframe := hm.frame
    refine ⟨fun hon => ?_, fun hres => hframe.stopTask ▸ h.resume (hframe.stop ▸ hres)⟩
    -- A loop that a `Stop` stands on does not move.
    rw [stopsOnLoop_iff, hframe.stop, hframe.stopTask, ← stopsOnLoop_iff, hfree] at hon
    cases hon
  | receive hposter hloop hk hfree =>
    exact ⟨fun hon => absurd (hfree.symm.trans hon) (by decide), h.resume⟩
  | callStop hs htask =>
    refine ⟨fun hon => htask (stopsOnLoop_iff.mp hon).2, fun hres => ?_⟩
    dsimp only at hres
    split at hres <;> cases hres
  | stop hm => exact h.stop hinv hm

theorem reachable_paused (h : Reachable config s) : s.Paused config := by
  refine h.invariant_of (fun s hs => reachable_inv hs) (fun s hs => ?_)
    fun s s' hinv hs hstep => ?_
  · subst hs
    exact ⟨by simp [stopsOnLoop], by simp⟩
  · obtain ⟨a, hstep⟩ := hstep
    obtain ⟨me, -, rfl⟩ | ⟨l, hl, hm⟩ := step_cases hstep
    · exact hs.frame rfl rfl rfl
    · exact (hs.frame rfl rfl rfl : Paused config { s with lock := l }).move (hinv.locked hl) hm

end CallManagerMini.LosEventHandler
