import CallManagerMini.HandlerInvariant
import CallManagerMini.Lib.Agents
import CallManagerMini.Lib.Runs

/-! # The signals of `Stop` in every run

Every move of the calls, of the loop and of `Stop` keeps the invariant, so that it holds in every
state of every run (`reachable_inv`): whatever way the steps of the callers, of the loop and of
`Stop` are interleaved, and whichever waits are given up.
-/

namespace CallManagerMini.LosEventHandler

open Agents (countP_set_add forall_set)
open SlotPool (Phase)

variable {config : Config} {s s' s₁ : LosEventHandler} {i : Nat} {c c' : Call}

/-! ## The calls -/

theorem holder_set (c' : Call) (hcalls : s₁.calls = s.calls) (hi : s.calls[i]? = some c) :
    holder { s₁ with calls := s₁.calls.set i c' } = Function.update s.holder i c'.hold := by
  obtain ⟨hlt, -⟩ := List.getElem?_eq_some_iff.mp hi
  rw [hcalls]
  funext j
  by_cases hji : j = i
  · subst hji
    rw [Function.update_self, holder, List.getElem?_set_self hlt]
    rfl
  · rw [Function.update_of_ne hji, holder, List.getElem?_set_ne (Ne.symm hji)]
    rfl

/-- A call that is not admitted has nothing to do with the slots and the timer message. -/
theorem CallMove.aside (hm : CallMove config i s c s₁ c') (h : c.admitted = false) :
    s₁.waiterInUse = s.waiterInUse ∧ s₁.timerMessageQueued = s.timerMessageQueued := by
  cases hm with
  | enter | allow | refuse | leave => exact ⟨rfl, rfl⟩
  | _ hpc => simp [Call.admitted, hpc] at h

/-- `Stop` has waited for somebody only if the handler does not run. -/
theorem Inv.not_running (h : s.Inv config) (hs : 1 ≤ s.stage) : s.state ≠ .running := by
  intro hrunning
  have hidle : s.stop = .idle := by
    by_contra hstop
    have hstopping := h.stopping hstop
    rw [hrunning] at hstopping
    cases hstopping
  simp [stage, hrunning, hidle, StopPc.stage] at hs

theorem holder_eq (hi : s.calls[i]? = some c) : s.holder i = c.hold := by
  rw [holder, hi]
  rfl

/-- `activeCalls_` goes on counting the calls. -/
theorem Inv.active_call (h : s.Inv config) (hi : s.calls[i]? = some c)
    (hm : CallMove config i s c s₁ c') :
    s₁.activeCalls = (s.calls.set i c').countP Call.active := by
  have hcount := countP_set_add Call.active c' hi
  have hbefore := h.active
  have hactive := hm.active fun hc => by
    rw [hbefore]
    exact List.countP_pos_iff.mpr ⟨c, List.mem_of_getElem? hi, hc⟩
  omega

/-- The timer message goes from the hand of a call into the ring, or back. -/
theorem Inv.queued_call (h : s.Inv config) (hi : s.calls[i]? = some c)
    (hm : CallMove config i s c s₁ c') :
    (s.calls.set i c').countP Call.holdsTimerMessage + s₁.inFlight .timerFire =
      s₁.timerMessageQueued.toNat := by
  have hmem := List.mem_of_getElem? hi
  have hcount := countP_set_add Call.holdsTimerMessage c' hi
  have hbefore := h.queued
  have hqueued := hm.queued (h.fits c hmem) fun hc => by
    have hpos : 0 < s.calls.countP Call.holdsTimerMessage :=
      List.countP_pos_iff.mpr ⟨c, hmem, hc⟩
    -- the flag is up: else the count of the messages on their way would be zero
    cases hq : s.timerMessageQueued with
    | true => rfl
    | false =>
      rw [hq] at hbefore
      simp only [Bool.toNat_false] at hbefore
      omega
  omega

/-- Each message that is on its way is still that of a call that waits for it. -/
theorem Inv.sent_call (h : s.Inv config) (hi : s.calls[i]? = some c)
    (hm : CallMove config i s c s₁ c') (j : Nat) :
    s₁.inFlight (.syncCall j) = SlotPool.sentCount (Function.update s.holder i c'.hold j) := by
  have hmem := List.mem_of_getElem? hi
  have hslot := hm.slotMove (h.fits c hmem) (h.tidy c hmem)
  have hbefore := h.sent j
  -- only the call that moves sends or answers a message of its own
  by_cases hji : j = i
  · subst hji
    have hsent := hslot.sent (holder_eq hi) h.pool
    rw [Function.update_self]
    rw [holder_eq hi] at hbefore
    omega
  · rw [Function.update_of_ne hji, hm.inFlight, hbefore]
    intro hmessage
    exact hji (message_eq_syncCall.mp hmessage).1.symm

/-- Once `Stop` has waited for the calls, none is admitted. -/
theorem Inv.admitted_call (h : s.Inv config) (hi : s.calls[i]? = some c)
    (hm : CallMove config i s c s₁ c') (hs : 2 ≤ s.stage) : c'.admitted = false := by
  by_contra hadmitted
  -- it was admitted before, or the handler was seen running: neither is so at this stage
  rcases hm.admitted (Bool.eq_true_of_not_eq_false hadmitted) with hbefore | hrunning
  · rw [h.noCalls hs c (List.mem_of_getElem? hi)] at hbefore
    cases hbefore
  · exact h.not_running (by omega) hrunning

/-- **A move of a call keeps the invariant.** -/
theorem Inv.call (h : s.Inv config) (hi : s.calls[i]? = some c)
    (hm : CallMove config i s c s₁ c') :
    Inv config { s₁ with calls := s₁.calls.set i c' } := by
  have hmem := List.mem_of_getElem? hi
  have hc := holder_eq hi
  have hframe := hm.frame
  have hslot := hm.slotMove (h.fits c hmem) (h.tidy c hmem)
  have hholder := holder_set c' hframe.calls hi
  have hstage : stage { s₁ with calls := s₁.calls.set i c' } = s.stage := by
    simp only [stage, hframe.state, hframe.stop]
  have haside : 2 ≤ s.stage → s₁.waiterInUse = s.waiterInUse ∧
      s₁.timerMessageQueued = s.timerMessageQueued := fun hs => hm.aside (h.noCalls hs c hmem)
  have hactive := h.active_call hi hm
  have hqueued := h.queued_call hi hm
  rw [hframe.calls] at hstage hholder ⊢
  exact
    { fits := forall_set h.fits (hm.fits (h.fits c hmem))
      tidy := forall_set h.tidy (hm.tidy hc (h.fits c hmem) h.pool (h.tidy c hmem))
      active := hactive
      dispatching := hframe.dispatching.trans (hframe.loop ▸ h.dispatching)
      queued := hqueued
      pool := hholder ▸ hslot.pool hc h.pool
      sent := fun j => hholder ▸ h.sent_call hi hm j
      ended := fun hposter hended =>
        hframe.loop.trans (h.ended hposter (hframe.loopRunning ▸ hended))
      external := fun hposter => (congrArg LoopPc.external hframe.loop).trans (h.external hposter)
      bound := hframe.loopTaskId ▸ h.bound
      stopping := fun hstop => hframe.state.trans (h.stopping (hframe.stop ▸ hstop))
      driven := fun hstop => h.driven (hframe.stop ▸ hstop)
      noLoop := fun hs hposter => hframe.loop.trans (h.noLoop (hstage ▸ hs) hposter)
      noCalls := fun hs => forall_set (h.noCalls (hstage ▸ hs))
        (h.admitted_call hi hm (hstage ▸ hs))
      noTimerMessage := by
        rw [hstage]
        exact fun hs => (haside (by omega)).2.trans (h.noTimerMessage hs)
      noWaiters := by
        rw [hstage]
        exact fun hs => (haside (by omega)).1 ▸ h.noWaiters hs
      timer := fun hs => hframe.timer.trans (h.timer (hstage ▸ hs))
      waiters := fun hs => hframe.waiters.trans (h.waiters (hstage ▸ hs))
      queueSem := fun hs hposter => hframe.queueSem.trans (h.queueSem (hstage ▸ hs) hposter)
      lock := fun hs => (congrArg Option.isSome hframe.lock).trans (h.lock (hstage ▸ hs))
      timerMessage := fun hs => hframe.timerMessage.trans (h.timerMessage (hstage ▸ hs)) }

/-! ## The loop -/

/-- What the loop never changes. -/
structure LoopFrame (s s' : LosEventHandler) : Prop where
  state : s'.state = s.state
  stop : s'.stop = s.stop
  stopTask : s'.stopTask = s.stopTask
  activeCalls : s'.activeCalls = s.activeCalls
  lock : s'.lock = s.lock
  timer : s'.timer.isSome = s.timer.isSome
  queueSem : s'.queueSem.isSome = s.queueSem.isSome
  waiters : s'.waiterInUse.length = s.waiterInUse.length
  timerMessage : s'.timerMessage = s.timerMessage

theorem takeDueLocked_eq (config : Config) (s : LosEventHandler) :
    ∃ t : Option OsTimer, t.isSome = s.timer.isSome ∧ s.takeDueLocked config = { s with
      timer := t
      delayed := s.delayed.dropWhile fun entry => isDue entry.dueTick s.tickCount
      loop := .runDelayed
        ((s.delayed.takeWhile fun entry => isDue entry.dueTick s.tickCount).map DelayedTask.call) } := by
  unfold takeDueLocked
  dsimp only
  rw [armTimerLocked_eq]
  refine ⟨_, ?_, rfl⟩
  exact armTimerLocked_isSome ..

theorem completeLocked_abandoned {status : RetCode} (hi : s.calls[i]? = some c)
    (habandoned : c.context.abandoned = true) : s.completeLocked i status = { s with
      calls := s.calls.set i (c.completed status)
      waiterInUse := s.waiterInUse.set c.context.slot false
      log := s.log ++ [.released i c.context.slot] } := by
  simp only [completeLocked, hi, habandoned, if_true]
  rfl

theorem completeLocked_waiting {status : RetCode} (hi : s.calls[i]? = some c)
    (hwaiting : c.context.abandoned = false) : s.completeLocked i status = { s with
      calls := s.calls.set i (c.completed status)
      waiterSems := s.waiterSems.modify c.context.slot fun _ => 1 } := by
  simp only [completeLocked, hi, hwaiting]
  rfl

theorem completeLocked_calls {status : RetCode} (hi : s.calls[i]? = some c) :
    (s.completeLocked i status).calls = s.calls.set i (c.completed status) := by
  cases habandoned : c.context.abandoned with
  | true => rw [completeLocked_abandoned hi habandoned]
  | false => rw [completeLocked_waiting hi habandoned]

theorem completeLocked_eq (i : Nat) (status : RetCode) (s : LosEventHandler) :
    ∃ (calls : List Call) (inUse : List Bool) (sems : List Nat) (log : List HandlerEvent),
      inUse.length = s.waiterInUse.length ∧ s.completeLocked i status = { s with
        calls := calls, waiterInUse := inUse, waiterSems := sems, log := log } := by
  cases hi : s.calls[i]? with
  | none =>
    exact ⟨s.calls, s.waiterInUse, s.waiterSems, s.log, rfl, by simp only [completeLocked, hi]⟩
  | some c =>
    cases habandoned : c.context.abandoned with
    | true => exact ⟨_, _, _, _, List.length_set, completeLocked_abandoned hi habandoned⟩
    | false => exact ⟨_, _, _, _, rfl, completeLocked_waiting hi habandoned⟩

theorem LoopMove.frame (hm : LoopMove config s s') : LoopFrame s s' := by
  cases hm with
  | wait _ hn => exact ⟨rfl, rfl, rfl, rfl, rfl, rfl, hn, rfl, rfl⟩
  | takeDue =>
    obtain ⟨t, ht, heq⟩ := takeDueLocked_eq config s
    rw [heq]
    exact ⟨rfl, rfl, rfl, rfl, rfl, ht, rfl, rfl, rfl⟩
  | complete =>
    obtain ⟨calls, inUse, sems, es, hused, heq⟩ := completeLocked_eq _ _ s
    rw [heq]
    exact ⟨rfl, rfl, rfl, rfl, rfl, rfl, rfl, hused, rfl⟩
  | _ => exact ⟨rfl, rfl, rfl, rfl, rfl, rfl, rfl, rfl, rfl⟩

theorem inFlight_of_pop {message : LosEventMessage} {rest : RingBuffer LosEventMessage}
    (hpop : s.ring.pop = some (message, rest)) (hhand : s.loop.hand = none)
    (hring : s'.ring = rest) (hposted : s'.posted = s.posted)
    (hhand' : s'.loop.hand = some message) (m : LosEventMessage) :
    s'.inFlight m = s.inFlight m := by
  rw [LosEventHandler.inFlight, LosEventHandler.inFlight, hring, hposted, hhand, hhand',
    RingBuffer.toList_eq_cons hpop, List.count_cons]
  simp only [beq_iff_eq, Option.some.injEq, reduceCtorEq, if_false]
  omega

/-- Only `Complete` touches a call, a slot or the message of a synchronous call. -/
theorem LoopMove.aside (hm : LoopMove config s s')
    (hne : ∀ drained i status, s.loop ≠ .complete drained i status) :
    s'.calls = s.calls ∧ s'.waiterInUse = s.waiterInUse ∧ s'.waiterSems = s.waiterSems ∧
      ∀ j, s'.inFlight (.syncCall j) = s.inFlight (.syncCall j) := by
  have hsame : s'.calls = s.calls → s'.waiterInUse = s.waiterInUse →
      s'.waiterSems = s.waiterSems → s'.ring = s.ring → s'.posted = s.posted →
      (∀ j, s'.loop.hand = some (.syncCall j) ↔ s.loop.hand = some (.syncCall j)) →
      s'.calls = s.calls ∧ s'.waiterInUse = s.waiterInUse ∧ s'.waiterSems = s.waiterSems ∧
        ∀ j, s'.inFlight (.syncCall j) = s.inFlight (.syncCall j) := by
    intro hcalls hused hsems hring hposted hhand
    refine ⟨hcalls, hused, hsems, fun j => ?_⟩
    rw [LosEventHandler.inFlight, LosEventHandler.inFlight, hring, hposted]
    simp only [hhand j]
  cases hm with
  | complete hpc => exact absurd hpc (hne _ _ _)
  | pop hpc hpop | drain hpc hpop =>
    refine ⟨rfl, rfl, rfl, fun j => ?_⟩
    exact inFlight_of_pop hpop (by rw [hpc]; rfl) (by rfl) (by rfl) (by rfl) _
  | takeDue hpc =>
    obtain ⟨t, -, heq⟩ := takeDueLocked_eq config s
    rw [heq] at hsame ⊢
    exact hsame rfl rfl rfl rfl rfl (by simp [hpc, LoopPc.hand])
  -- the ring is empty: the loop waits again, or drains if the handler stops
  | popNone hpc =>
    exact hsame rfl rfl rfl rfl rfl fun j => by
      dsimp only
      split <;> simp [hpc, LoopPc.hand]
  | dispatched hpc =>
    exact hsame rfl rfl rfl rfl rfl fun j => by
      dsimp only
      split
      · simp [hpc, LoopPc.hand]
      · split <;> simp [hpc, LoopPc.hand]
  | @recycleTimer drained hpc | @recycleAsync drained _ hpc =>
    exact hsame rfl rfl rfl rfl rfl fun j => by
      cases drained <;> simp [hpc, LoopPc.hand, LoopPc.behind]
  | _ hpc => exact hsame rfl rfl rfl rfl rfl (by simp [hpc, LoopPc.hand])

theorem LoopMove.loop_ne_idle (hm : LoopMove config s s') : s.loop ≠ .idle := by
  cases hm <;> simp_all

/-- `timerMessageQueued_` follows the timer message through the loop. -/
theorem LoopMove.queued (hm : LoopMove config s s')
    (hq : s.loop.hand = some .timerFire → s.timerMessageQueued = true) :
    s'.inFlight .timerFire + s.timerMessageQueued.toNat =
      s.inFlight .timerFire + s'.timerMessageQueued.toNat := by
  have hsame : s'.ring = s.ring → s'.posted = s.posted →
      (s'.loop.hand = some .timerFire ↔ s.loop.hand = some .timerFire) →
      s'.timerMessageQueued = s.timerMessageQueued →
      s'.inFlight .timerFire + s.timerMessageQueued.toNat =
        s.inFlight .timerFire + s'.timerMessageQueued.toNat := by
    intro hring hposted hhand hqueued
    rw [LosEventHandler.inFlight, LosEventHandler.inFlight, hring, hposted, hqueued]
    simp only [hhand]
  cases hm with
  | pop hpc hpop | drain hpc hpop =>
    exact congrArg (· + _) (inFlight_of_pop hpop (by rw [hpc]; rfl) (by rfl) (by rfl) (by rfl) _)
  -- here the flag goes down, and the message is out of hand in the same step
  | handleTimer hpc =>
    have hraised := hq (by rw [hpc]; rfl)
    simp [LosEventHandler.inFlight, hpc, hraised, LoopPc.hand, note]
  | @recycleTimer drained hpc =>
    have hraised := hq (by rw [hpc]; rfl)
    cases drained <;> simp [LosEventHandler.inFlight, hpc, hraised, LoopPc.hand, note,
      LoopPc.behind]
  | takeDue hpc =>
    obtain ⟨t, -, heq⟩ := takeDueLocked_eq config s
    rw [heq] at hsame ⊢
    exact hsame rfl rfl (by simp [hpc, LoopPc.hand]) rfl
  | @complete drained i status hpc =>
    obtain ⟨calls, inUse, sems, es, -, heq⟩ := completeLocked_eq i status s
    rw [heq] at hsame ⊢
    refine hsame rfl rfl ?_ rfl
    cases drained <;> simp [hpc, LoopPc.hand, LoopPc.behind]
  | popNone hpc =>
    refine hsame rfl rfl ?_ rfl
    dsimp only
    split <;> simp [hpc, LoopPc.hand]
  | dispatched hpc =>
    refine hsame rfl rfl ?_ rfl
    dsimp only
    split
    · simp [hpc, LoopPc.hand]
    · split <;> simp [hpc, LoopPc.hand]
  | @recycleAsync drained _ hpc =>
    refine hsame rfl rfl ?_ rfl
    cases drained <;> simp [hpc, LoopPc.hand, LoopPc.behind]
  | _ hpc => exact hsame rfl rfl (by simp [hpc, LoopPc.hand]) rfl

/-- `dispatching_` follows the loop. -/
theorem LoopMove.dispatching (hm : LoopMove config s s')
    (h : s.dispatching = s.loop.inDispatch.toNat) :
    s'.dispatching = s'.loop.inDispatch.toNat := by
  cases hm with
  | popNone hpc =>
    rw [hpc] at h
    dsimp only
    split <;> exact h
  | dispatched hpc =>
    rw [hpc] at h
    dsimp only
    rw [h]
    split
    · rfl
    · split <;> rfl
  | takeDue hpc =>
    obtain ⟨t, -, heq⟩ := takeDueLocked_eq config s
    rw [hpc] at h
    rw [heq]
    exact h
  | @complete drained i status hpc =>
    obtain ⟨calls, inUse, sems, es, -, heq⟩ := completeLocked_eq i status s
    rw [hpc] at h
    rw [heq]
    cases drained <;> exact h
  | @recycleTimer drained hpc | @recycleAsync drained _ hpc =>
    rw [hpc] at h
    cases drained <;> exact h
  | @recycleSync drained i hpc =>
    rw [hpc] at h
    cases drained <;> exact h
  | dispatch hpc =>
    rw [hpc] at h
    dsimp only
    rw [h]
    rfl
  | _ hpc =>
    rw [hpc] at h
    exact h

/-- A task that calls `Dispatch` does not come to the places of the loop. -/
theorem LoopMove.external (hm : LoopMove config s s') (hposter : config.poster = true)
    (h : s.loop.external = true) : s'.loop.external = true := by
  cases hm with
  | bind hpc | wait hpc | popNone hpc | pop hpc | drainNone hpc | drain hpc | unbind hpc
  | exit hpc =>
    rw [hpc] at h
    cases h
  | dispatched =>
    dsimp only
    rw [if_pos hposter]
    rfl
  | @complete drained i status hpc =>
    rw [hpc] at h
    cases drained with
    | true => cases h
    | false => rfl
  | @recycleTimer drained hpc | @recycleSync drained _ hpc | @recycleAsync drained _ hpc =>
    rw [hpc] at h
    cases drained with
    | true => cases h
    | false => rfl
  | _ => rfl

theorem LoopMove.loopTaskId (hm : LoopMove config s s')
    (h : s.loopTaskId = 0 ∨ s.loopTaskId = config.loopTask) :
    s'.loopTaskId = 0 ∨ s'.loopTaskId = config.loopTask := by
  cases hm with
  | bind => exact .inr rfl
  | unbind => exact .inl rfl
  | takeDue =>
    obtain ⟨t, -, heq⟩ := takeDueLocked_eq config s
    rw [heq]
    exact h
  | complete =>
    obtain ⟨calls, inUse, sems, es, -, heq⟩ := completeLocked_eq _ _ s
    rw [heq]
    exact h
  | _ => exact h

theorem LoopMove.loopRunning (hm : LoopMove config s s') :
    s'.loopRunning = s.loopRunning ∨ s'.loop = .idle := by
  cases hm with
  | exit => exact .inr rfl
  | takeDue =>
    obtain ⟨t, -, heq⟩ := takeDueLocked_eq config s
    rw [heq]
    exact .inl rfl
  | complete =>
    obtain ⟨calls, inUse, sems, es, -, heq⟩ := completeLocked_eq _ _ s
    rw [heq]
    exact .inl rfl
  | _ => exact .inl rfl

theorem LoopMove.timerMessageQueued (hm : LoopMove config s s')
    (h : s.timerMessageQueued = false) : s'.timerMessageQueued = false := by
  cases hm with
  | takeDue =>
    obtain ⟨t, -, heq⟩ := takeDueLocked_eq config s
    rw [heq]
    exact h
  | complete =>
    obtain ⟨calls, inUse, sems, es, -, heq⟩ := completeLocked_eq _ _ s
    rw [heq]
    exact h
  | handleTimer | recycleTimer => rfl
  | _ => exact h

/-- The signal that `Complete` gives reaches the caller, or takes its slot back for it. -/
theorem hold_completed {k : Nat} (status : RetCode) (h : c.hold = some (k, .sent))
    (htidy : c.Tidy) : c.context.slot = k ∧
      (c.completed status).hold = if c.context.abandoned then none else some (k, .signalled) := by
  obtain ⟨request, task, pc, ⟨slot, abandoned, done, status'⟩⟩ := c
  obtain ⟨hleft, -, -⟩ := htidy
  dsimp only at hleft
  -- only a synchronous call holds a slot
  cases request with
  | postSyncTask timeoutMs =>
    cases pc with
    | signal | await =>
      have hwaiting : abandoned = false := by simpa using hleft
      cases done <;> simp_all [Call.hold, Call.completed]
    | settle waited =>
      have hwaiting : abandoned = false := by simpa using hleft
      cases waited <;> cases done <;> simp_all [Call.hold, Call.completed]
    -- the caller gave up after its message was sent
    | leaving | returned =>
      cases abandoned <;> cases done <;> simp_all [Call.hold, Call.completed]
    | _ => simp [Call.hold] at h
  | _ => simp [Call.hold] at h

theorem tidy_completed {k : Nat} (status : RetCode) (h : c.hold = some (k, .sent))
    (htidy : c.Tidy) : (c.completed status).Tidy := by
  refine ⟨htidy.1, fun slot hslot => ?_, fun _ => rfl⟩
  rw [(hold_completed status h htidy).2] at hslot
  split at hslot <;> cases hslot

/-- `Complete` answers the message in the hand of the loop. -/
theorem inFlight_completeLocked {drained : Bool} {status : RetCode}
    (hpc : s.loop = .complete drained i status) (j : Nat) :
    inFlight { s.completeLocked i status with loop := .behind drained } (.syncCall j) +
      (if j = i then 1 else 0) = s.inFlight (.syncCall j) := by
  obtain ⟨calls, inUse, sems, log, -, heq⟩ := completeLocked_eq i status s
  rw [heq]
  have hhand : s.loop.hand = some (.syncCall i) := by rw [hpc]; rfl
  have hbehind : LoopPc.hand (.behind drained) = none := by cases drained <;> rfl
  simp only [LosEventHandler.inFlight, hhand, hbehind, Option.some.injEq,
    LosEventMessage.syncCall.injEq, reduceCtorEq, if_false, eq_comm (a := i)]
  omega

/-- The timer message in the hand of the loop is marked as queued. -/
theorem Inv.raised (h : s.Inv config) (hhand : s.loop.hand = some .timerFire) :
    s.timerMessageQueued = true := by
  have hqueued := h.queued
  rw [LosEventHandler.inFlight, if_pos hhand] at hqueued
  cases hraised : s.timerMessageQueued with
  | true => rfl
  | false =>
    rw [hraised] at hqueued
    simp only [Bool.toNat_false] at hqueued
    omega

/-- The calls and their slots are in order after a move of the loop. -/
structure CallsKept (config : Config) (s s' : LosEventHandler) : Prop where
  fits : ∀ c ∈ s'.calls, c.Fits config
  tidy : ∀ c ∈ s'.calls, c.Tidy
  active : s'.calls.countP Call.active = s.calls.countP Call.active
  holds : s'.calls.countP Call.holdsTimerMessage = s.calls.countP Call.holdsTimerMessage
  noCalls : 2 ≤ s.stage → ∀ c ∈ s'.calls, c.admitted = false
  pool : SlotPool.Valid s'.holder s'.waiterInUse s'.waiterSems
  sent : ∀ i, s'.inFlight (.syncCall i) = SlotPool.sentCount (s'.holder i)
  noWaiters : true ∉ s.waiterInUse → true ∉ s'.waiterInUse

theorem Inv.loop_of_callsKept (h : s.Inv config) (hm : LoopMove config s s')
    (hk : CallsKept config s s') : Inv config s' := by
  have hframe := hm.frame
  have hstage : s'.stage = s.stage := by simp only [stage, hframe.state, hframe.stop]
  exact
    { fits := hk.fits
      tidy := hk.tidy
      active := by rw [hframe.activeCalls, h.active, hk.active]
      dispatching := hm.dispatching h.dispatching
      queued := by
        have hqueued := hm.queued h.raised
        have hholds := hk.holds
        have hbefore := h.queued
        omega
      pool := hk.pool
      sent := hk.sent
      ended := fun hposter hended =>
        hm.loopRunning.elim
          (fun hsame => (hm.loop_ne_idle (h.ended hposter (hsame ▸ hended))).elim) id
      external := fun hposter => hm.external hposter (h.external hposter)
      bound := hm.loopTaskId h.bound
      stopping := fun hstop => hframe.state.trans (h.stopping (hframe.stop ▸ hstop))
      driven := fun hstop => h.driven (hframe.stop ▸ hstop)
      noLoop := fun hs hposter =>
        (hm.loop_ne_idle (h.noLoop (hstage ▸ hs) hposter)).elim
      noCalls := fun hs => hk.noCalls (hstage ▸ hs)
      noTimerMessage := fun hs => hm.timerMessageQueued (h.noTimerMessage (hstage ▸ hs))
      noWaiters := fun hs => hk.noWaiters (h.noWaiters (hstage ▸ hs))
      timer := fun hs => hframe.timer.trans (h.timer (hstage ▸ hs))
      waiters := fun hs => hframe.waiters.trans (h.waiters (hstage ▸ hs))
      queueSem := fun hs hposter => hframe.queueSem.trans (h.queueSem (hstage ▸ hs) hposter)
      lock := fun hs => (congrArg Option.isSome hframe.lock).trans (h.lock (hstage ▸ hs))
      timerMessage := fun hs => hframe.timerMessage.trans (h.timerMessage (hstage ▸ hs)) }

theorem LoopMove.callsKept (h : s.Inv config) (hm : LoopMove config s s')
    (hne : ∀ drained i status, s.loop ≠ .complete drained i status) : CallsKept config s s' := by
  obtain ⟨hcalls, hused, hsems, hflight⟩ := hm.aside hne
  have hholder : s'.holder = s.holder := by
    funext j
    rw [holder, holder, hcalls]
  exact
    { fits := hcalls ▸ h.fits
      tidy := hcalls ▸ h.tidy
      active := by rw [hcalls]
      holds := by rw [hcalls]
      noCalls := hcalls ▸ h.noCalls
      pool := by
        rw [hholder, hused, hsems]
        exact h.pool
      sent := fun j => by
        rw [hflight, hholder]
        exact h.sent j
      noWaiters := hused ▸ id }

/-! ### `Complete` -/

/-- The call that is answered waits, and its message is on its way. -/
theorem Inv.completing {drained : Bool} {status : RetCode} (h : s.Inv config)
    (hpc : s.loop = .complete drained i status) :
    ∃ c, s.calls[i]? = some c ∧ c.hold = some (c.context.slot, .sent) ∧ c.Tidy := by
  have hflight := inFlight_completeLocked hpc i
  have hsent := h.sent i
  rw [if_pos rfl] at hflight
  -- the message in hand is counted, so its call is among those that wait
  obtain ⟨k, hk⟩ : ∃ k, s.holder i = some (k, .sent) := SlotPool.eq_sent_of_pos (by omega)
  obtain ⟨c, hi, hc⟩ := Option.bind_eq_some_iff.mp hk
  have htidy := h.tidy c (List.mem_of_getElem? hi)
  obtain ⟨rfl, -⟩ := hold_completed status hc htidy
  exact ⟨c, hi, hc, htidy⟩

theorem holder_completeLocked {drained : Bool} {status : RetCode} (hi : s.calls[i]? = some c) :
    holder { s.completeLocked i status with loop := .behind drained } =
      Function.update s.holder i (c.completed status).hold := by
  rw [← holder_set (c.completed status) (rfl : s.calls = s.calls) hi]
  funext j
  change (s.completeLocked i status).calls[j]?.bind Call.hold = _
  rw [completeLocked_calls hi]
  rfl

/-- The slot is signalled, or free again if its caller has given up. -/
theorem Inv.pool_completed {status : RetCode} (h : s.Inv config) (hi : s.calls[i]? = some c)
    (hc : c.hold = some (c.context.slot, .sent)) :
    SlotPool.Valid (Function.update s.holder i (c.completed status).hold)
      (s.completeLocked i status).waiterInUse (s.completeLocked i status).waiterSems := by
  have hk : s.holder i = some (c.context.slot, .sent) := (holder_eq hi).trans hc
  obtain ⟨-, hcompleted⟩ := hold_completed status hc (h.tidy c (List.mem_of_getElem? hi))
  rw [hcompleted]
  cases habandoned : c.context.abandoned with
  | true =>
    rw [completeLocked_abandoned hi habandoned, if_pos rfl]
    exact h.pool.release hk (by decide)
  | false =>
    rw [completeLocked_waiting hi habandoned, if_neg (by decide)]
    dsimp only
    rw [List.modify_eq_set]
    exact h.pool.advance hk rfl

/-- The message that was answered is on its way no more. -/
theorem Inv.sent_completed {drained : Bool} {status : RetCode} (h : s.Inv config)
    (hpc : s.loop = .complete drained i status) (hi : s.calls[i]? = some c)
    (hc : c.hold = some (c.context.slot, .sent)) (j : Nat) :
    inFlight { s.completeLocked i status with loop := .behind drained } (.syncCall j) =
      SlotPool.sentCount (Function.update s.holder i (c.completed status).hold j) := by
  have hk : s.holder i = some (c.context.slot, .sent) := (holder_eq hi).trans hc
  obtain ⟨-, hcompleted⟩ := hold_completed status hc (h.tidy c (List.mem_of_getElem? hi))
  have hflight := inFlight_completeLocked hpc j
  have hsent := h.sent j
  -- the answered message was the one in the hand of the loop
  by_cases hji : j = i
  · subst hji
    rw [hk, SlotPool.sentCount] at hsent
    rw [if_pos rfl] at hflight
    rw [Function.update_self, hcompleted]
    have hzero : SlotPool.sentCount
        (if c.context.abandoned then none else some (c.context.slot, Phase.signalled)) = 0 := by
      split <;> rfl
    omega
  · rw [if_neg hji] at hflight
    rw [Function.update_of_ne hji]
    omega

theorem noWaiters_completed {status : RetCode} (hi : s.calls[i]? = some c)
    (hnone : true ∉ s.waiterInUse) : true ∉ (s.completeLocked i status).waiterInUse := by
  cases habandoned : c.context.abandoned with
  | true =>
    rw [completeLocked_abandoned hi habandoned]
    intro hmem
    rcases List.mem_or_eq_of_mem_set hmem with hmem | hfalse
    · exact hnone hmem
    · cases hfalse
  | false =>
    rw [completeLocked_waiting hi habandoned]
    exact hnone

theorem Inv.callsKept_completed {drained : Bool} {status : RetCode} (h : s.Inv config)
    (hpc : s.loop = .complete drained i status) :
    CallsKept config s { s.completeLocked i status with loop := .behind drained } := by
  obtain ⟨c, hi, hc, htidy⟩ := h.completing hpc
  have hmem := List.mem_of_getElem? hi
  have hcalls : (s.completeLocked i status).calls = s.calls.set i (c.completed status) :=
    completeLocked_calls hi
  have hcount : ∀ p : Call → Bool, p (c.completed status) = p c →
      (s.completeLocked i status).calls.countP p = s.calls.countP p := by
    intro p hp
    have hset := countP_set_add p (c.completed status) hi
    rw [hp] at hset
    rw [hcalls]
    omega
  exact
    { fits := hcalls ▸ forall_set h.fits (h.fits c hmem)
      tidy := hcalls ▸ forall_set h.tidy (tidy_completed status hc htidy)
      active := hcount Call.active rfl
      holds := hcount Call.holdsTimerMessage rfl
      noCalls := fun hs => hcalls ▸ forall_set (h.noCalls hs) (h.noCalls hs c hmem)
      pool := holder_completeLocked hi ▸ h.pool_completed hi hc
      sent := fun j => holder_completeLocked hi ▸ h.sent_completed hpc hi hc j
      noWaiters := noWaiters_completed hi }

/-- **A move of the loop keeps the invariant.** -/
theorem Inv.loop (h : s.Inv config) (hm : LoopMove config s s') : Inv config s' := by
  refine h.loop_of_callsKept hm ?_
  by_cases hcomplete : ∃ drained i status, s.loop = .complete drained i status
  · obtain ⟨drained, i, status, hpc⟩ := hcomplete
    obtain rfl : s' = { s.completeLocked i status with loop := .behind drained } := by
      cases hm <;> simp_all
    exact h.callsKept_completed hpc
  · exact hm.callsKept h fun drained i status hpc => hcomplete ⟨drained, i, status, hpc⟩

end CallManagerMini.LosEventHandler
