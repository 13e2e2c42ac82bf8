import CallManagerMini.HandlerRuns

/-! # Who uses the objects that `Stop` releases

`ReleaseObjects` deletes the lock, the timer, the semaphores and the timer message.  Here is
which of them the next step of a call or of the loop uses (`Call.uses`, `LoopPc.uses`).  What a
call uses, and what the loop uses in the timer message or for a synchronous call, `Stop` waits
for by `activeCalls_`, `timerMessageQueued_` and `waiterInUse_`, and it keeps the objects when
the wait is over without success.  A `Dispatch` on another task it waits for by `dispatching_`,
and goes on whatever comes of it: if its time is up while `RunDueTasks` is on its way to the
lock, the lock and the timer are released under it (`stop_releases_under_dispatch`).
-/

namespace CallManagerMini

/-- What `ReleaseObjects` releases. -/
inductive KernelObject where
  | lock
  | timer
  | queueSem
  | waiterSem (slot : Nat)
  | timerMessage
  deriving DecidableEq, Repr

/-- What the next step of a call uses. -/
def Call.uses (c : Call) : List KernelObject :=
  match c.pc with
  | .insert | .remove => [.lock, .timer]
  | .acquire | .freeSlot _ | .settle true => [.lock]
  | .enqueue | .post => if c.request = .onTimerExpired then [.timerMessage] else []
  | .push => if c.request = .onTimerExpired then [.lock, .timerMessage] else [.lock]
  | .signal => [.queueSem]
  | .await => [.waiterSem c.context.slot]
  | .settle false => [.lock, .waiterSem c.context.slot]
  | .rearm => [.timer]
  | _ => []

namespace LosEventHandler

/-- The object is there. -/
def Has (s : LosEventHandler) : KernelObject → Prop
  | .lock => s.lock.isSome = true
  | .timer => s.timer.isSome = true
  | .queueSem => s.queueSem.isSome = true
  | .waiterSem slot => slot < s.waiterSems.length
  | .timerMessage => s.timerMessage = true

instance (s : LosEventHandler) : ∀ o, Decidable (s.Has o)
  | .lock => inferInstanceAs (Decidable (_ = _))
  | .timer => inferInstanceAs (Decidable (_ = _))
  | .queueSem => inferInstanceAs (Decidable (_ = _))
  | .waiterSem _ => inferInstanceAs (Decidable (_ < _))
  | .timerMessage => inferInstanceAs (Decidable (_ = _))

/-- The semaphore that `Complete` posts for the call `i`. -/
def answers (s : LosEventHandler) (i : Nat) : List KernelObject :=
  (s.calls[i]?.map fun c => KernelObject.waiterSem c.context.slot).toList

/-- What the next step of a poster, a synchronous caller, the timer callback, the loop or
`Dispatch` uses. -/
def uses (s : LosEventHandler) : Agent → List KernelObject
  | .call i => (s.calls[i]?.map Call.uses).getD []
  | .loop =>
    match s.loop with
    | .wait => [.queueSem]
    | .pop | .drain => [.lock]
    | .handle .timerFire | .recycle _ .timerFire => [.timerMessage]
    | .runDue => [.lock, .timer]
    | .complete _ i _ => .lock :: s.answers i
    | _ => []
  | .stop => []

variable {config : Config} {s s' s₁ : LosEventHandler} {i : Nat} {c c' : Call}

/-! ## What the signals are enough for -/

/-- **While a call has work to do, `Stop` has released nothing.** -/
theorem Inv.call_has (h : s.Inv config) (hi : s.calls[i]? = some c) :
    ∀ o ∈ c.uses, s.Has o := by
  have hmem := List.mem_of_getElem? hi
  by_cases hadmitted : c.admitted = true
  · have hstage : s.stage ≤ 1 := by
      by_contra hs
      have hnone := h.noCalls (by omega) c hmem
      rw [hadmitted] at hnone
      cases hnone
    have hfits := h.fits c hmem
    have hslot : ∀ k p, c.hold = some (k, p) → k < s.waiterSems.length := by
      intro k p hk
      rw [h.pool.length]
      exact h.pool.lt_length ((holder_eq hi).trans hk)
    have htimer := h.timer (by omega)
    have hlock := h.lock (by omega)
    have hmessage := h.timerMessage (by omega)
    intro o ho
    cases hpc : c.pc with
    | signal =>
      simp only [Call.Fits, hpc] at hfits
      simp only [Call.uses, hpc, List.mem_singleton] at ho
      rw [ho]
      exact h.queueSem (by omega) hfits
    | await =>
      simp only [Call.Fits, hpc] at hfits
      obtain ⟨timeoutMs, hreq⟩ := hfits
      simp only [Call.uses, hpc, List.mem_singleton] at ho
      rw [ho]
      exact hslot _ _ (by simp only [Call.hold, hreq, hpc]; rfl)
    | settle waited =>
      simp only [Call.Fits, hpc] at hfits
      obtain ⟨timeoutMs, hreq⟩ := hfits
      cases waited with
      | true =>
        simp only [Call.uses, hpc, List.mem_singleton] at ho
        rw [ho]
        exact hlock
      | false =>
        simp only [Call.uses, hpc, List.mem_cons, List.not_mem_nil, or_false] at ho
        rcases ho with rfl | rfl
        · exact hlock
        · exact hslot _ _ (by simp only [Call.hold, hreq, hpc]; rfl)
    | insert | remove =>
      simp only [Call.uses, hpc, List.mem_cons, List.not_mem_nil, or_false] at ho
      rcases ho with rfl | rfl
      · exact hlock
      · exact htimer
    | enqueue | post =>
      simp only [Call.uses, hpc] at ho
      split at ho
      · rw [List.mem_singleton.mp ho]
        exact hmessage
      · cases ho
    | push =>
      simp only [Call.uses, hpc] at ho
      split at ho
      · simp only [List.mem_cons, List.not_mem_nil, or_false] at ho
        rcases ho with rfl | rfl
        · exact hlock
        · exact hmessage
      · rw [List.mem_singleton.mp ho]
        exact hlock
    | acquire | freeSlot =>
      simp only [Call.uses, hpc, List.mem_singleton] at ho
      rw [ho]
      exact hlock
    | rearm =>
      simp only [Call.uses, hpc, List.mem_singleton] at ho
      rw [ho]
      exact htimer
    | _ => simp [Call.uses, hpc] at ho
  · intro o ho
    cases hpc : c.pc <;> simp_all [Call.uses, Call.admitted]

/-- A loop of a handler that drives itself runs on all objects. -/
theorem Inv.stage_zero (h : s.Inv config) (hposter : config.poster = false)
    (hloop : s.loop ≠ .idle) : s.stage = 0 := by
  by_contra hs
  exact hloop (h.noLoop (by omega) hposter)

/-- As long as the loop has the timer message, `Stop` has released nothing. -/
theorem Inv.stage_timerFire (h : s.Inv config) (hhand : s.loop.hand = some .timerFire) :
    s.stage ≤ 2 := by
  by_contra hs
  have hqueued := h.queued
  rw [h.noTimerMessage (by omega), LosEventHandler.inFlight, if_pos hhand] at hqueued
  simp only [Bool.toNat_false] at hqueued
  omega

/-- As long as the loop has a synchronous call to answer, its caller's slot is in use. -/
theorem Inv.holder_of_hand (h : s.Inv config) (hhand : s.loop.hand = some (.syncCall i)) :
    ∃ k, s.holder i = some (k, .sent) := by
  refine SlotPool.eq_sent_of_pos ?_
  rw [← h.sent i, LosEventHandler.inFlight, if_pos hhand]
  omega

/-- **The loop and `Dispatch` use what is there**, provided nothing is released while
`RunDueTasks` is on its way to the lock. -/
theorem Inv.loop_has (h : s.Inv config)
    (hfire : s.loop.inTimerFire = true → s.stage = 0) : ∀ o ∈ s.uses .loop, s.Has o := by
  have hself : s.loop.external = false → s.stage = 0 ∧ config.poster = false := by
    intro hexternal
    have hposter : config.poster = false := by
      by_contra hposter
      rw [h.external (Bool.eq_true_of_not_eq_false hposter)] at hexternal
      cases hexternal
    refine ⟨h.stage_zero hposter fun hidle => ?_, hposter⟩
    rw [hidle] at hexternal
    cases hexternal
  intro o ho
  cases hpc : s.loop with
  | wait =>
    obtain ⟨hs, hposter⟩ := hself (by rw [hpc]; rfl)
    simp only [uses, hpc, List.mem_singleton] at ho
    rw [ho]
    exact h.queueSem (by omega) hposter
  | pop | drain =>
    obtain ⟨hs, -⟩ := hself (by rw [hpc]; rfl)
    simp only [uses, hpc, List.mem_singleton] at ho
    rw [ho]
    exact h.lock (by omega)
  | handle message | recycle _ message =>
    cases message with
    | timerFire =>
      have hs := h.stage_timerFire (by rw [hpc]; rfl)
      simp only [uses, hpc, List.mem_singleton] at ho
      rw [ho]
      exact h.timerMessage (by omega)
    | _ => simp [uses, hpc] at ho
  | runDue =>
    have hs := hfire (by rw [hpc]; rfl)
    simp only [uses, hpc, List.mem_cons, List.not_mem_nil, or_false] at ho
    rcases ho with rfl | rfl
    · exact h.lock (by omega)
    · exact h.timer (by omega)
  | complete drained i status =>
    obtain ⟨k, hk⟩ := h.holder_of_hand (by rw [hpc]; rfl)
    obtain ⟨c, hi, hc⟩ := Option.bind_eq_some_iff.mp hk
    have hs : s.stage ≤ 3 := by
      by_contra hs
      rw [h.nobody (by omega)] at hk
      cases hk
    obtain ⟨rfl, -⟩ := hold_completed status hc (h.tidy c (List.mem_of_getElem? hi))
    simp only [uses, hpc, answers, hi, Option.map_some, Option.toList_some, List.mem_cons,
      List.not_mem_nil, or_false] at ho
    rcases ho with rfl | rfl
    · exact h.lock (by omega)
    · change c.context.slot < s.waiterSems.length
      rw [h.pool.length]
      exact h.pool.lt_length hk
  | _ => simp [uses, hpc] at ho

/-! ## Runs in which `Stop` waits long enough for `Dispatch` -/

/-- `Stop` does not give up its wait for `dispatching_` while `Dispatch` handles a timer message
it took when the handler was running. -/
def Heeded (a : Act) (s : LosEventHandler) : Prop :=
  a = .stop true → s.stop = .awaitDispatch → s.dispatching ≠ 0 → s.loop.inTimerFire = false

instance (a : Act) (s : LosEventHandler) : Decidable (Heeded a s) :=
  inferInstanceAs (Decidable (_ → _))

/-- A step in which `Stop` waits long enough. -/
def HeededSteps (config : Config) (s s' : LosEventHandler) : Prop :=
  ∃ a, Heeded a s ∧ s.step? config a = some s'

/-- What holds besides in such runs. -/
structure Calm (config : Config) (s : LosEventHandler) : Prop where
  selfDriven : s.stop = .wakeLoop ∨ s.stop = .awaitLoop → config.poster = false
  timerFire : 1 ≤ s.stage → s.loop.inTimerFire = false

theorem leftToOwner_not_inTimerFire (h : s.leftToOwner config = true) :
    s.loop.inTimerFire = false := by
  unfold leftToOwner at h
  cases hpc : s.loop with
  | runDue | handle =>
    rw [hpc] at h
    cases hposter : config.poster <;> simp [hposter, LoopPc.executing] at h
  | _ => rfl

theorem not_inTimerFire_of_inDispatch {pc : LoopPc} (h : pc.inDispatch = false) :
    pc.inTimerFire = false := by
  cases pc with
  | runDue => cases h
  | handle => cases h
  | _ => rfl

/-- Who holds the lock does not matter. -/
theorem Calm.locked (h : s.Calm config) (l : Option (Option Agent)) :
    Calm config { s with lock := l } :=
  { h with }

/-- `Dispatch` begins with the timer message only while the handler runs. -/
theorem LoopMove.inTimerFire (hm : LoopMove config s s') (h : s'.loop.inTimerFire = true) :
    s.loop.inTimerFire = true ∨ s.state = .running := by
  cases hm with
  | allow _ hs => exact .inr hs
  | handleTimer hpc => exact .inl (by rw [hpc]; rfl)
  | popNone | dispatched =>
    dsimp only at h
    split at h
    · cases h
    · try split at h
      all_goals cases h
  | takeDue =>
    obtain ⟨t, -, heq⟩ := takeDueLocked_eq config s
    rw [heq] at h
    cases h
  | @complete drained i status | @recycleTimer drained _ | @recycleAsync drained _ _ =>
    cases drained <;> cases h
  | _ => cases h

theorem Calm.stop {timeUp : Bool} (h : s.Calm config) (hinv : s.Inv config)
    (hpaused : s.Paused config) (hheeded : s.Heeded (.stop timeUp))
      (hm : StopMove config s timeUp s') :
    Calm config s' := by
  have hinside : s'.loop = s.loop →
      (s'.stop = .wakeLoop ∨ s'.stop = .awaitLoop → config.poster = false) →
      (1 ≤ s'.stage → s.loop.inTimerFire = false) → Calm config s' := by
    intro hloop hself hfire
    exact ⟨hself, fun hs => hloop ▸ hfire hs⟩
  have hstage : ∀ {pc}, s.stop = pc → pc ≠ .idle → s.stage = pc.stage := by
    rintro pc rfl hpc
    exact hinv.stage_eq hpc
  have hearly : ∀ {pc}, s'.stop = pc → pc.stage = 0 → s'.state ≠ .uninit → 1 ≤ s'.stage →
      s.loop.inTimerFire = false := by
    rintro pc rfl hpc hstate hs
    rw [stage, if_neg hstate, hpc] at hs
    omega
  have hlate : ∀ {pc}, s.stop = pc → 1 ≤ pc.stage → 1 ≤ s'.stage →
      s.loop.inTimerFire = false := by
    rintro pc rfl hpc -
    refine h.timerFire ?_
    rw [hinv.stage_eq fun hidle => ?_]
    · exact hpc
    · rw [hidle] at hpc
      cases hpc
  have hstate : ∀ {pc}, s.stop = pc → pc ≠ .idle → s.state ≠ .uninit := by
    rintro pc rfl hpc
    simp [hinv.stopping hpc]
  cases hm with
  | poll => exact h
  | onLoop hpc | offLoop hpc | stopTimer hpc =>
    exact hinside rfl (by simp)
      (hearly rfl rfl (hstate hpc (by simp)))
  | resume hpc => exact hinside rfl (by simp) (hearly rfl rfl (by simp))
  | dropDelayed hpc =>
    refine hinside rfl ?_ (hearly rfl ?_ (hstate hpc (by simp)))
    · cases hposter : config.poster <;> simp
    · cases hposter : config.poster <;> rfl
  | wakeLoop hpc =>
    exact hinside rfl (fun _ => h.selfDriven (.inl hpc))
      (hearly rfl rfl (hstate hpc (by simp)))
  | loopEnded hpc hended =>
    have hidle := hinv.ended (h.selfDriven (.inr hpc)) hended
    exact hinside rfl (by simp) fun _ => by rw [hidle]; rfl
  | giveUp hpc =>
    have hinit : s.state ≠ .uninit := by
      rcases hpc with hpc | hpc | hpc | hpc <;> exact hstate hpc (by simp)
    have hquiet : 1 ≤ stage { s with stop := .idle } → s.loop.inTimerFire = false :=
      hearly rfl rfl hinit
    rcases hpc with hpc | hpc | hpc | hpc <;>
      exact hinside rfl (by simp) hquiet
  | checkedOnLoop hpc hon =>
    -- `Stop` was called by the task of the loop, which does nothing else.
    have hown := hpaused.onLoop (stopsOnLoop_iff.mpr ⟨by simp [hpc], hinv.eq_loopTask hon⟩)
    exact hinside rfl (by simp) fun _ => leftToOwner_not_inTimerFire hown
  | checkedOffLoop hpc =>
    exact hinside rfl (by simp)
      (hearly rfl rfl (hstate hpc (by simp)))
  | dispatchEnded hpc hended =>
    have hout : s.loop.inDispatch = false := by
      have hdispatching := hinv.dispatching
      rw [hended] at hdispatching
      exact Bool.toNat_eq_zero.mp hdispatching.symm
    exact hinside rfl (by simp) fun _ => not_inTimerFire_of_inDispatch hout
  | dispatchTimedOut hpc hbusy =>
    exact hinside rfl (by simp) fun _ => hheeded rfl hpc hbusy
  | waitAgain hpc =>
    rcases hpc with hpc | hpc <;>
      exact hinside rfl (by simp) (hlate hpc (by decide))
  | callsEnded hpc | timerMessageBack hpc | waitersEnded hpc | releaseTimer hpc
  | releaseWaiters hpc | releaseQueue hpc | releaseLock hpc | releaseMessage hpc
  | clearQueued hpc | finish hpc =>
    exact hinside rfl (by simp [note]) (hlate hpc (by decide))

theorem Calm.move {a : Act} (h : s.Calm config) (hinv : s.Inv config) (hpaused : s.Paused config)
    (hheeded : s.Heeded a) (hm : Move config s a s') : Calm config s' := by
  cases hm with
  | init hs =>
    have hstop : s.stop = .idle := hinv.stop_idle (by simp [hs])
    have heq : (s.initialized config).stop = .idle ∧ (s.initialized config).state = .running := by
      cases hposter : config.poster <;> simp [LosEventHandler.initialized, hposter, note, hstop]
    refine ⟨by simp [heq.1], fun hstage => ?_⟩
    simp [stage, heq.1, heq.2, StopPc.stage] at hstage
  | invoke | expire | bindLoopTask | tick | nothing => exact { h with }
  | call hi hm =>
    have hframe := hm.frame
    refine ⟨fun hstop => h.selfDriven (hframe.stop ▸ hstop), fun hstage => ?_⟩
    simp only [stage, hframe.stop, hframe.state] at hstage
    exact hframe.loop ▸ h.timerFire hstage
  | loop hfree hm =>
    have hframe := hm.frame
    refine ⟨fun hstop => h.selfDriven (hframe.stop ▸ hstop), fun hstage => ?_⟩
    have hbefore : 1 ≤ s.stage := by simpa only [stage, hframe.stop, hframe.state] using hstage
    by_contra hfire
    rcases hm.inTimerFire (Bool.eq_true_of_not_eq_false hfire) with hfire | hrunning
    · rw [h.timerFire hbefore] at hfire
      cases hfire
    · exact hinv.not_running hbefore hrunning
  | receive => exact ⟨h.selfDriven, fun _ => rfl⟩
  | callStop =>
    refine ⟨fun hstop => ?_, fun hstage => ?_⟩
    · dsimp only at hstop
      split at hstop <;> simp at hstop
    · simp only [stage, reduceCtorEq, if_false] at hstage
      split at hstage <;> cases hstage
  | stop hm => exact h.stop hinv hpaused hheeded hm

/-- The states a run comes to in which `Stop` waits long enough. -/
abbrev HeededReachable (config : Config) : LosEventHandler → Prop :=
  Runs.Reachable (· = {}) (HeededSteps config)

theorem HeededReachable.reachable (h : HeededReachable config s) : Reachable config s :=
  h.mono fun _ _ ⟨a, _, hstep⟩ => ⟨a, hstep⟩

theorem HeededReachable.calm (h : HeededReachable config s) : s.Calm config := by
  induction h with
  | start hs =>
    subst hs
    exact ⟨by simp, fun _ => rfl⟩
  | next hprev hstep ih =>
    obtain ⟨a, hheeded, hstep⟩ := hstep
    have hreach := HeededReachable.reachable hprev
    have hinv := reachable_inv hreach
    obtain ⟨me, -, rfl⟩ | ⟨l, hl, hm⟩ := step_cases hstep
    · exact ih.locked _
    · exact (ih.locked l).move (hinv.locked hl) ((reachable_paused hreach).frame rfl rfl rfl)
        hheeded hm

/-- **`Stop` releases kernel objects only when nobody can reach them**, in every run in which it
does not give up its wait for a `Dispatch` that is on its way to `RunDueTasks`: whatever the next
step of a poster, a synchronous caller, the timer callback, the loop or `Dispatch` uses is
there. -/
theorem used_objects_exist (h : HeededReachable config s) (agent : Agent) :
    ∀ o ∈ s.uses agent, s.Has o := by
  have hinv := reachable_inv h.reachable
  cases agent with
  | call i =>
    intro o ho
    cases hi : s.calls[i]? with
    | none => simp [uses, hi] at ho
    | some c => exact hinv.call_has hi o (by simpa [uses, hi] using ho)
  | loop =>
    refine hinv.loop_has fun hfire => ?_
    by_contra hstage
    rw [h.calm.timerFire (by omega)] at hfire
    cases hfire
  | stop => simp [uses]

/-! ## A run in which it does not -/

/-- Several steps, if all of them can be taken. -/
def run? (config : Config) (as : List Act) (s : LosEventHandler) : Option LosEventHandler :=
  as.foldlM (fun s a => s.step? config a) s

theorem reachable_run {as : List Act} (hs : Reachable config s)
    (h : s.run? config as = some s') : Reachable config s' :=
  Runs.Reachable.foldlM hs h

theorem heededReachable_run {as : List Act} (hs : HeededReachable config s)
    (h : s.run? config as = some s')
    (hheeded : ∀ a ∈ as, a ≠ .stop true) : HeededReachable config s' := by
  induction as generalizing s with
  | nil =>
    obtain rfl := Option.some.inj h
    exact hs
  | cons a as ih =>
    obtain ⟨s₁, hstep, hrest⟩ := Option.bind_eq_some_iff.mp h
    exact ih (hs.next ⟨a, fun heq => (hheeded a (by simp) heq).elim, hstep⟩) hrest
      fun b hb => hheeded b (by simp [hb])

/-- An externally driven handler, as small as it can be. -/
def smallConfig : Config where
  queueSize := 2
  maxDelayedTasks := 2
  maxSyncWaiters := 2
  poster := true
  loopName := false
  tickFreq := 100#32
  loopTask := 7

/-- A delayed task becomes due, the owner takes the timer message, and `Dispatch` finds the
handler running. -/
def timerFires : List Act :=
  [.init true, .invoke (.postAsyncTask 20#32) 1] ++ List.replicate 5 (.call 0 true) ++
    [.tick, .tick, .expire 2] ++ List.replicate 6 (.call 1 true) ++ [.receive 0, .loop, .loop]

/-- Another task stops the handler: the wait for `dispatching_` is over before `RunDueTasks` has
the lock. -/
def stopsMeanwhile : List Act :=
  [.callStop 3] ++ List.replicate 4 (.stop false) ++ [.stop true, .stop false, .loop] ++
    List.replicate 5 (.stop false)

/-- While nobody stops it, `RunDueTasks` has its lock and its timer. -/
theorem used_objects_exist_small :
    (({} : LosEventHandler).run? smallConfig (timerFires ++ [.loop])).elim False fun s =>
      s.uses .loop = [.lock, .timer] ∧ ∀ o ∈ s.uses .loop, s.Has o := by
  have hrun : ((({} : LosEventHandler).run? smallConfig (timerFires ++ [.loop])).map (uses · .loop)) =
      some [.lock, .timer] := by decide +kernel
  obtain ⟨s, hs, huses⟩ := Option.map_eq_some_iff.mp hrun
  rw [hs]
  exact ⟨huses, used_objects_exist (heededReachable_run (.start rfl) hs (by decide)) .loop⟩

/-- **Dispatch uses a timer and a lock that `Stop` has released.** -/
theorem stop_releases_under_dispatch :
    ¬∀ s, Reachable smallConfig s → ∀ agent, agent ≠ .stop → ∀ o ∈ s.uses agent, s.Has o := by
  intro hclaim
  have hrun : ((({} : LosEventHandler).run? smallConfig (timerFires ++ stopsMeanwhile)).map
      fun s => decide (KernelObject.timer ∈ s.uses .loop ∧ ¬s.Has .timer)) = some true := by
    decide +kernel
  obtain ⟨s, hs, hboth⟩ := Option.map_eq_some_iff.mp hrun
  obtain ⟨huses, hnone⟩ := of_decide_eq_true hboth
  exact hnone (hclaim s (reachable_run (.start rfl) hs) .loop (by simp) .timer huses)

end LosEventHandler

end CallManagerMini
